import MiniHedge.CapitalAccounts.OwnershipRules
import MiniHedge.Library.Groups
import Mathlib.Algebra.BigOperators.Group.Finset.Basic

/-! What a daily allocation leaves of the capital.

Each allocator gives out its whole total, whatever the rounding, unless the
percentages of its accounts sum to zero: then it gives out nothing. The fees of
a class in which nobody holds an account are given to nobody.
-/

set_option autoImplicit false

namespace MiniHedge.CapitalAccounts

open MiniHedge.Python MiniHedge.Library MiniHedge.Shared

/-! ## The allocators -/

section Allocators

variable {accounts : List Holding} {total managementFee performanceFee : Decimal}

/-- What is given out of a total. -/
def taken (accounts : List Holding) (total : Decimal) : Decimal :=
  if (accounts.map (·.ownershipPct)).sum = 0 then 0 else total

theorem taken_add (accounts : List Holding) (first second : Decimal) :
    taken accounts first + taken accounts second = taken accounts (first + second) := by
  unfold taken
  split
  · exact add_zero 0
  · rfl

theorem sum_amounts (apply : Decimal → Decimal → Decimal) (accounts : List Holding)
    (total : Decimal) : ((allocate apply accounts total).map (·.amount)).sum = taken accounts total := by
  simp only [allocate, taken]
  split
  · rename_i none_given
    rw [List.map_map]
    have zeros : (accounts.map (Allocation.amount ∘ fun a : Holding => ⟨a.id, 0, a.capital⟩)).sum = 0 := by
      simp [Function.comp_def]
    rw [zeros]
    split
    · rfl
    · rename_i positive
      exact (none_given.resolve_right positive).symm
  · rename_i given
    rw [not_or] at given
    rw [if_neg given.2]
    have nonempty : accounts ≠ [] := by
      rintro rfl
      exact given.2 rfl
    have lengths := length_apportion
      (fun a : Holding => quantize 2 .halfUp (total * a.ownershipPct / (accounts.map (·.ownershipPct)).sum))
      total 0 accounts
    rw [List.map_zipWith]
    have amounts : ∀ (xs : List Holding) (parts : List Decimal), parts.length = xs.length →
        List.zipWith (fun _ amount => amount) xs parts = parts := by
      intro xs parts same
      rw [← List.map_uncurry_zip_eq_zipWith]
      exact List.map_snd_zip same.le
    rw [amounts _ _ lengths, sum_apportion _ _ _ nonempty, sub_zero]

theorem allocateFees_each (accounts : List Holding) (totalFee : Decimal) :
    List.Forall₂ (fun a r => r.id = a.id ∧ r.capital = a.capital - r.amount) accounts
      (allocateFees accounts totalFee) :=
  allocate_each sub_zero accounts totalFee

/-- The fees of each account are taken from its own capital. -/
theorem chargeFees_each (accounts : List Holding) (managementFee performanceFee : Decimal) :
    List.Forall₂ (fun a c => c.id = a.id ∧ c.capital = a.capital - c.management - c.performance)
      accounts (chargeFees accounts managementFee performanceFee) := by
  have mgmt := allocateFees_each accounts managementFee
  have perf := allocateFees_each (accounts.zipWith (fun a r => ⟨a.id, r.capital, a.ownershipPct⟩)
    (allocateFees accounts managementFee)) performanceFee
  unfold chargeFees
  dsimp only
  generalize allocateFees (accounts.zipWith _ _) performanceFee = perfResults at perf ⊢
  generalize allocateFees accounts managementFee = mgmtResults at mgmt perf ⊢
  induction mgmt generalizing perfResults with
  | nil =>
    cases perf
    exact .nil
  | cons charged _ ih =>
    cases perf with
    | cons left later =>
      refine .cons ⟨charged.1, ?_⟩ (ih _ later)
      dsimp only at left ⊢
      rw [left.2, charged.2]

theorem sum_zipWith_add {β γ δ : Type} {f : β → γ → δ} {u : β → Decimal} {v : γ → Decimal}
    {w : δ → Decimal} (each : ∀ y z, w (f y z) = u y + v z) {ys : List β} {zs : List γ}
    (same : ys.length = zs.length) :
    ((List.zipWith f ys zs).map w).sum = (ys.map u).sum + (zs.map v).sum := by
  induction ys generalizing zs with
  | nil =>
    rw [List.length_eq_zero_iff.mp same.symm]
    simp
  | cons y rest ih =>
    cases zs with
    | nil => cases same
    | cons z later =>
      simp only [List.zipWith_cons_cons, List.map_cons, List.sum_cons, each, ih (Nat.succ.inj same)]
      ring

theorem sum_fees (accounts : List Holding) (managementFee performanceFee : Decimal) :
    ((chargeFees accounts managementFee performanceFee).map fun c => c.management + c.performance).sum =
      taken accounts (managementFee + performanceFee) := by
  have mgmt := allocateFees_each accounts managementFee
  have posted := forall₂_zipWith (fun (a : Holding) (r : Allocation) =>
      (⟨a.id, r.capital, a.ownershipPct⟩ : Holding))
    (List.forall₂_same.mpr fun a (_ : a ∈ accounts) => (rfl : a = a)) mgmt
  have pcts := map_eq_of_forall₂ (f := Holding.ownershipPct) (g := Holding.ownershipPct)
    (posted.imp fun a h related => by
      obtain ⟨b, r, rfl, -, rfl⟩ := related
      rfl)
  have perf := allocateFees_each (accounts.zipWith (fun a r => ⟨a.id, r.capital, a.ownershipPct⟩)
    (allocateFees accounts managementFee)) performanceFee
  have lengths := mgmt.length_eq.symm.trans (posted.length_eq.trans perf.length_eq)
  unfold chargeFees
  dsimp only
  rw [sum_zipWith_add (u := Allocation.amount) (v := Allocation.amount) (fun _ _ => rfl) lengths,
    ← taken_add]
  congr 1
  · exact sum_amounts _ _ _
  · rw [allocateFees, sum_amounts, taken, taken, pcts]

/-- The capital that is left after the fees. -/
theorem sum_charged (accounts : List Holding) (managementFee performanceFee : Decimal) :
    ((chargeFees accounts managementFee performanceFee).map (·.capital)).sum =
      (accounts.map (·.capital)).sum - taken accounts (managementFee + performanceFee) := by
  have each := chargeFees_each accounts managementFee performanceFee
  rw [← sum_fees]
  generalize chargeFees accounts managementFee performanceFee = charges at each ⊢
  induction each with
  | nil => simp
  | cons charged _ ih =>
    simp only [List.map_cons, List.sum_cons, ih, charged.2]
    ring

theorem sum_credited (accounts : List Holding) (fundPnl : Decimal) :
    ((allocatePnl accounts fundPnl).map (·.capital)).sum =
      (accounts.map (·.capital)).sum + taken accounts fundPnl := by
  have each := allocate_each add_zero accounts fundPnl
  rw [← sum_amounts (· + ·), allocatePnl]
  generalize allocate (· + ·) accounts fundPnl = results at each ⊢
  induction each with
  | nil => simp
  | cons credited _ ih =>
    simp only [List.map_cons, List.sum_cons, ih, credited.2]
    ring

end Allocators

/-! ## The charges of all classes -/

section Charges

variable {d : DailyAllocation} {postPnl : List (Holding × String)}

/-- The fees that are to be allocated: those of the classes, where they are given. -/
def DailyAllocation.fees (d : DailyAllocation) : Decimal :=
  match d.classFees with
  | none | some [] => d.managementFee + d.performanceFee
  | some fees => (fees.map fun fee => fee.2.1 + fee.2.2).sum

/-- The accounts of a class, with their ownership in it. -/
def inClass (cls : String) (postPnl : List (Holding × String)) : List Holding :=
  intraClass ((postPnl.filter (·.2 = cls)).map (·.1))

/-- The fees that are given out. -/
def DailyAllocation.takenFees (d : DailyAllocation) (postPnl : List (Holding × String)) : Decimal :=
  match d.classFees with
  | none | some [] => taken (postPnl.map (·.1)) (d.managementFee + d.performanceFee)
  | some fees => ((postPnl.map (·.2)).eraseDups.map fun cls =>
      let fee := (fees.lookup cls).getD (0, 0)
      taken (inClass cls postPnl) (fee.1 + fee.2)).sum

theorem intraClass_same (accounts : List Holding) :
    (intraClass accounts).map (fun a => (a.id, a.capital)) = accounts.map fun a => (a.id, a.capital) := by
  unfold intraClass
  dsimp only
  split
  · rw [List.map_map]
    rfl
  · rfl

/-- A charge, for the capital of its account. -/
def Charged (capitals : List (Nat × Decimal)) (c : Charge) : Prop :=
  (c.id, c.capital + c.management + c.performance) ∈ capitals

theorem chargeFees_charged (accounts : List Holding) (managementFee performanceFee : Decimal) :
    (chargeFees accounts managementFee performanceFee).map (·.id) = accounts.map (·.id) ∧
      ∀ c ∈ chargeFees accounts managementFee performanceFee,
        Charged (accounts.map fun a => (a.id, a.capital)) c := by
  have each := chargeFees_each accounts managementFee performanceFee
  refine ⟨map_eq_of_forall₂ (each.imp fun _ _ charged => charged.1), fun c member => ?_⟩
  obtain ⟨a, inside, same, capital⟩ := forall₂_mem each.flip member
  refine List.mem_map.mpr ⟨a, inside, ?_⟩
  rw [same, capital]
  ring_nf

/-- Every account is charged once, of its own capital, and what is left in all is what the fees
that are given out leave. -/
structure Charges (postPnl : List (Holding × String)) (fees : Decimal) (charges : List Charge) :
    Prop where
  once : (charges.map (·.id)).Perm (postPnl.map (·.1.id))
  own : ∀ c ∈ charges, Charged (postPnl.map fun post => (post.1.id, post.1.capital)) c
  left : (charges.map (·.capital)).sum = (postPnl.map (·.1.capital)).sum - fees

theorem charges_fund (postPnl : List (Holding × String)) (managementFee performanceFee : Decimal) :
    Charges postPnl (taken (postPnl.map (·.1)) (managementFee + performanceFee))
      (chargeFees (postPnl.map (·.1)) managementFee performanceFee) := by
  obtain ⟨ids, charged⟩ := chargeFees_charged (postPnl.map (·.1)) managementFee performanceFee
  rw [List.map_map] at ids charged
  refine ⟨ids ▸ List.Perm.refl _, charged, ?_⟩
  rw [sum_charged, List.map_map]
  rfl

/-- The charges of one class. -/
theorem charges_inClass (postPnl : List (Holding × String)) (cls : String)
    (managementFee performanceFee : Decimal) :
    Charges (postPnl.filter (·.2 = cls)) (taken (inClass cls postPnl) (managementFee + performanceFee))
      (chargeFees (inClass cls postPnl) managementFee performanceFee) := by
  obtain ⟨ids, charged⟩ := chargeFees_charged (inClass cls postPnl) managementFee performanceFee
  have same := intraClass_same ((postPnl.filter (·.2 = cls)).map (·.1))
  have sameIds := congrArg (List.map Prod.fst) same
  have capitals := congrArg (List.map Prod.snd) same
  simp only [List.map_map, Function.comp_def] at same sameIds capitals
  refine ⟨?_, ?_, ?_⟩
  · rw [ids, inClass, sameIds]
  · rwa [inClass, same] at charged
  · rw [sum_charged, inClass, capitals]

/-- The charges of several groups together. -/
theorem Charges.append {first second : List (Holding × String)} {fees others : Decimal}
    {charges more : List Charge} (left : Charges first fees charges)
    (right : Charges second others more) :
    Charges (first ++ second) (fees + others) (charges ++ more) := by
  refine ⟨?_, fun c member => ?_, ?_⟩
  · rw [List.map_append, List.map_append]
    exact left.once.append right.once
  · rw [Charged, List.map_append, List.mem_append]
    exact (List.mem_append.mp member).imp (left.own c) (right.own c)
  · rw [List.map_append, List.sum_append, left.left, right.left, List.map_append, List.sum_append]
    ring

/-- The order of the accounts does not matter. -/
theorem Charges.perm {first second : List (Holding × String)} {fees : Decimal}
    {charges : List Charge} (all : Charges first fees charges) (perm : first.Perm second) :
    Charges second fees charges := by
  refine ⟨all.once.trans (perm.map _), fun c member => (perm.map _).subset (all.own c member), ?_⟩
  rw [all.left, (perm.map fun post => post.1.capital).sum_eq]

theorem charges_spec (d : DailyAllocation) (postPnl : List (Holding × String)) :
    Charges postPnl (d.takenFees postPnl) (d.charges postPnl) := by
  unfold DailyAllocation.charges DailyAllocation.takenFees
  rcases d.classFees with _ | _ | ⟨fee, rest⟩
  · exact charges_fund _ _ _
  · exact charges_fund _ _ _
  · -- class after class, in the order in which they first occur
    refine Charges.perm ?_ (groups_eraseDups_perm (·.2) postPnl)
    dsimp only
    induction (postPnl.map (·.2)).eraseDups with
    | nil => exact ⟨.refl _, fun _ member => (nomatch member), by simp⟩
    | cons cls _ ih => exact (charges_inClass postPnl cls _ _).append ih

end Charges

/-! ## The snapshots -/

section Snapshots

variable {d : DailyAllocation} {session : Option Nat} {current : List (CapitalAccountRecord × Nat)}

def holdings (session : Option Nat) (current : List (CapitalAccountRecord × Nat)) : List Holding :=
  current.map fun (a, id) => ⟨id, a.endingCapital, a.ownershipSeen session⟩

/-- The holdings with their part of the P&L, and their classes. -/
def DailyAllocation.afterPnl (d : DailyAllocation) (session : Option Nat)
    (current : List (CapitalAccountRecord × Nat)) : List (Holding × String) :=
  List.zipWith (fun (a, id) r => (⟨id, r.capital, a.ownershipSeen session⟩, a.shareClass)) current
    (allocatePnl (holdings session current) d.fundPnl)

theorem credited_each (d : DailyAllocation) (session : Option Nat)
    (current : List (CapitalAccountRecord × Nat)) :
    List.Forall₂ (fun entry r => r.id = entry.2 ∧ r.capital = entry.1.endingCapital + r.amount) current
      (allocatePnl (holdings session current) d.fundPnl) :=
  List.forall₂_map_left_iff.mp (allocate_each add_zero (holdings session current) d.fundPnl)

theorem credited_ids (d : DailyAllocation) (session : Option Nat)
    (current : List (CapitalAccountRecord × Nat)) :
    (allocatePnl (holdings session current) d.fundPnl).map (·.id) = current.map (·.2) :=
  map_eq_of_forall₂ ((credited_each d session current).imp fun _ _ related => related.1)

/-- A holding after the P&L is that of an account, with what it was credited. -/
def Posted (session : Option Nat) (results : List Allocation) (entry : CapitalAccountRecord × Nat)
    (post : Holding × String) : Prop :=
  ∃ r ∈ results, r.id = entry.2 ∧ r.capital = entry.1.endingCapital + r.amount ∧
    post = (⟨entry.2, r.capital, entry.1.ownershipSeen session⟩, entry.1.shareClass)

theorem afterPnl_each (d : DailyAllocation) (session : Option Nat)
    (current : List (CapitalAccountRecord × Nat)) :
    List.Forall₂ (Posted session (allocatePnl (holdings session current) d.fundPnl)) current
      (d.afterPnl session current) := by
  have results := ((List.forall₂_and_left _ _).mpr ⟨fun r inside => inside,
    (credited_each d session current).flip⟩).flip
  have posts := forall₂_zipWith (fun (entry : CapitalAccountRecord × Nat) (r : Allocation) =>
      ((⟨entry.2, r.capital, entry.1.ownershipSeen session⟩ : Holding), entry.1.shareClass))
    (List.forall₂_same.mpr fun entry (_ : entry ∈ current) => (rfl : entry = entry)) results
  refine posts.imp ?_
  rintro entry post ⟨_, r, rfl, ⟨inside, own, capital⟩, rfl⟩
  exact ⟨r, inside, own, capital, rfl⟩

theorem afterPnl_ids (d : DailyAllocation) (session : Option Nat)
    (current : List (CapitalAccountRecord × Nat)) :
    (d.afterPnl session current).map (·.1.id) = current.map (·.2) := by
  refine map_eq_of_forall₂ ((afterPnl_each d session current).imp ?_)
  rintro entry post ⟨r, -, -, -, rfl⟩
  rfl

theorem afterPnl_capitals (d : DailyAllocation) (session : Option Nat)
    (current : List (CapitalAccountRecord × Nat)) :
    (d.afterPnl session current).map (·.1.capital) =
      (allocatePnl (holdings session current) d.fundPnl).map (·.capital) := by
  have posts := forall₂_zipWith (fun (entry : CapitalAccountRecord × Nat) (r : Allocation) =>
      ((⟨entry.2, r.capital, entry.1.ownershipSeen session⟩ : Holding), entry.1.shareClass))
    (credited_each d session current).flip (List.forall₂_same.mpr fun r _ => (rfl : r = r))
  refine map_eq_of_forall₂ (posts.imp ?_)
  rintro r post ⟨entry, _, -, rfl, rfl⟩
  rfl

theorem resultOf_eq {α : Type} {key : α → Nat} {results : List α} (distinct : (results.map key).Nodup)
    {r : α} (member : r ∈ results) : resultOf key results (key r) = .ok r := by
  rw [resultOf, find?_key distinct member]

/-- The results of the accounts are found, and the snapshots are made of them. -/
theorem snapshots_ok (d : DailyAllocation) (session : Option Nat)
    (distinct : (current.map (·.2)).Nodup) :
    ∃ snapshots, d.snapshots session current = .ok snapshots ∧
      List.Forall₂ (fun entry (s : Snapshot) => s.account = entry.1 ∧ s.id = entry.2 ∧
        (∃ r ∈ allocatePnl (holdings session current) d.fundPnl, r.id = entry.2 ∧ s.pnl = r.amount) ∧
        s.charge ∈ d.charges (d.afterPnl session current) ∧ s.charge.id = entry.2) current snapshots := by
  have resultIds := (credited_ids d session current).symm ▸ distinct
  have found : ∀ entry ∈ current, ∃ r ∈ allocatePnl (holdings session current) d.fundPnl,
      r.id = entry.2 ∧
        resultOf Allocation.id (allocatePnl (holdings session current) d.fundPnl) entry.2 = .ok r := by
    intro entry member
    obtain ⟨r, inside, same, -⟩ := forall₂_mem (credited_each d session current) member
    exact ⟨r, inside, same, same ▸ resultOf_eq resultIds inside⟩
  have posted : current.mapM (fun (a, id) => do
      let r ← resultOf Allocation.id (allocatePnl (holdings session current) d.fundPnl) id
      return ((⟨id, r.capital, a.ownershipSeen session⟩ : Holding), a.shareClass)) =
        .ok (d.afterPnl session current) := by
    refine mapM_eq_ok.mpr ((afterPnl_each d session current).imp ?_)
    rintro ⟨a, id⟩ post ⟨r, inside, same, -, rfl⟩
    have result := resultOf_eq resultIds inside
    rw [same] at result
    exact bind_eq_ok.mpr ⟨r, result, rfl⟩
  have once := afterPnl_ids d session current ▸ (charges_spec d (d.afterPnl session current)).once
  have chargeIds := once.nodup_iff.mpr distinct
  have charged : ∀ entry ∈ current, ∃ c ∈ d.charges (d.afterPnl session current), c.id = entry.2 ∧
      resultOf Charge.id (d.charges (d.afterPnl session current)) entry.2 = .ok c := by
    intro entry member
    obtain ⟨c, inside, same⟩ := List.mem_map.mp (once.symm.subset (List.mem_map_of_mem member))
    exact ⟨c, inside, same, same ▸ resultOf_eq chargeIds inside⟩
  obtain ⟨finals, finally_⟩ := exists_mapM (l := current) (f := fun (_, id) => do
      return (id, (← resultOf Charge.id (d.charges (d.afterPnl session current)) id).capital))
      fun entry member => by
    obtain ⟨c, -, -, result⟩ := charged entry member
    exact ⟨_, bind_eq_ok.mpr ⟨c, result, rfl⟩⟩
  obtain ⟨snapshots, made⟩ := exists_mapM (l := current) (f := fun (a, id) => do
      let r ← resultOf Allocation.id (allocatePnl (holdings session current) d.fundPnl) id
      let charge ← resultOf Charge.id (d.charges (d.afterPnl session current)) id
      return (⟨a, id, r.amount, charge, ((recomputeOwnership finals).lookup id).getD 0⟩ : Snapshot))
      fun entry member => by
    obtain ⟨r, -, -, credit⟩ := found entry member
    obtain ⟨c, -, -, charge⟩ := charged entry member
    exact ⟨_, bind_eq_ok.mpr ⟨r, credit, bind_eq_ok.mpr ⟨c, charge, rfl⟩⟩⟩
  refine ⟨snapshots, bind_eq_ok.mpr ⟨_, posted, bind_eq_ok.mpr ⟨finals, finally_, made⟩⟩, ?_⟩
  have each := (List.forall₂_and_left _ _).mpr
    ⟨fun entry (inside : entry ∈ current) => inside, mapM_eq_ok.mp made⟩
  refine each.imp ?_
  rintro ⟨a, id⟩ s ⟨member, result⟩
  obtain ⟨r, inside, same, credit⟩ := found _ member
  obtain ⟨c, within, own, charge⟩ := charged _ member
  obtain ⟨r', credit', result⟩ := bind_eq_ok.mp result
  obtain ⟨c', charge', made⟩ := bind_eq_ok.mp result
  cases made
  cases credit.symm.trans credit'
  cases charge.symm.trans charge'
  exact ⟨rfl, rfl, ⟨r, inside, same, rfl⟩, within, own⟩

/-- The P&L of an account is applied to its own capital, and its own charge is taken. -/
theorem snapshots_balanced {snapshots : List Snapshot} (distinct : (current.map (·.2)).Nodup)
    (computed : d.snapshots session current = .ok snapshots) :
    ∀ s ∈ snapshots, s.charge.capital =
      s.account.endingCapital + s.pnl - s.charge.management - s.charge.performance := by
  obtain ⟨made, same, each⟩ := snapshots_ok d session distinct
  cases same.symm.trans computed
  intro s member
  obtain ⟨entry, held, account, -, ⟨r, credit, own, amount⟩, charged, id⟩ := forall₂_mem each.flip member
  have resultIds := (credited_ids d session current).symm ▸ distinct
  obtain ⟨post, posted, equal⟩ :=
    List.mem_map.mp ((charges_spec d (d.afterPnl session current)).own s.charge charged)
  obtain ⟨entry', held', r', credit', own', capital, rfl⟩ :=
    forall₂_mem (afterPnl_each d session current).flip posted
  obtain ⟨sameId, sameCapital⟩ := Prod.mk.inj equal
  cases List.inj_on_of_nodup_map distinct held' held (sameId.trans id)
  cases List.inj_on_of_nodup_map resultIds credit' credit (own'.trans own.symm)
  have after : r.capital = s.charge.capital + s.charge.management + s.charge.performance := sameCapital
  rw [account, amount, ← capital, after]
  ring

/-- What the accounts are left with in all. -/
theorem sum_snapshots {snapshots : List Snapshot} (distinct : (current.map (·.2)).Nodup)
    (computed : d.snapshots session current = .ok snapshots) :
    (snapshots.map (·.charge.capital)).sum = (current.map (·.1.endingCapital)).sum +
      taken (holdings session current) d.fundPnl - d.takenFees (d.afterPnl session current) := by
  obtain ⟨made, same, each⟩ := snapshots_ok d session distinct
  cases same.symm.trans computed
  have spec := charges_spec d (d.afterPnl session current)
  have ids : snapshots.map (·.charge.id) = current.map (·.2) :=
    map_eq_of_forall₂ (each.imp fun _ _ related => related.2.2.2.2)
  have once : (snapshots.map (·.charge)).Perm (d.charges (d.afterPnl session current)) := by
    have nodup : (snapshots.map (·.charge)).Nodup := by
      refine List.Nodup.of_map Charge.id ?_
      rw [List.map_map]
      exact ids ▸ distinct
    -- as many as there are charges, and all of them different
    refine (List.subperm_of_subset nodup fun c member => ?_).perm_of_length_le ?_
    · obtain ⟨s, inside, rfl⟩ := List.mem_map.mp member
      obtain ⟨entry, -, related⟩ := forall₂_mem each.flip inside
      exact related.2.2.2.1
    · have lengths := (afterPnl_ids d session current ▸ spec.once).length_eq
      simp only [List.length_map] at lengths
      rw [lengths, List.length_map, each.length_eq]
  have sums := (once.map (·.capital)).sum_eq
  rw [List.map_map] at sums
  have before : (holdings session current).map (·.capital) = current.map (·.1.endingCapital) := by
    rw [holdings, List.map_map]
    rfl
  calc (snapshots.map (·.charge.capital)).sum
      = ((d.charges (d.afterPnl session current)).map (·.capital)).sum := sums
    _ = ((d.afterPnl session current).map (·.1.capital)).sum - d.takenFees (d.afterPnl session current) :=
      spec.left
    _ = _ := by rw [afterPnl_capitals, sum_credited, before]

end Snapshots

/-! ## Allocations that give out everything -/

section GivenOut

variable {d : DailyAllocation} {session : Option Nat} {current : List (CapitalAccountRecord × Nat)}
  {postPnl : List (Holding × String)}

theorem taken_eq {accounts : List Holding} {total : Decimal}
    (given : total = 0 ∨ (accounts.map (·.ownershipPct)).sum ≠ 0) : taken accounts total = total := by
  unfold taken
  split
  · rename_i none_held
    exact (given.resolve_right fun held => held none_held).symm
  · rfl

/-- Every total that is not zero meets percentages that do not sum to zero. -/
def DailyAllocation.GivesAll (d : DailyAllocation) (session : Option Nat)
    (current : List (CapitalAccountRecord × Nat)) : Prop :=
  let held := holdings session current
  let postPnl := d.afterPnl session current
  (d.fundPnl = 0 ∨ (held.map (·.ownershipPct)).sum ≠ 0) ∧
    match d.classFees with
    | none | some [] =>
      d.managementFee + d.performanceFee = 0 ∨ (postPnl.map (·.1.ownershipPct)).sum ≠ 0
    | some fees => (fees.map (·.1)).Nodup ∧ ∀ fee ∈ fees, fee.2.1 + fee.2.2 = 0 ∨
        ((inClass fee.1 postPnl).map (·.ownershipPct)).sum ≠ 0

theorem inClass_absent {cls : String} (absent : cls ∉ postPnl.map (·.2)) : inClass cls postPnl = [] := by
  have none_held : postPnl.filter (·.2 = cls) = [] := by
    refine List.filter_eq_nil_iff.mpr fun post inside same => absent ?_
    exact List.mem_map.mpr ⟨post, inside, of_decide_eq_true same⟩
  rw [inClass, none_held]
  rfl

/-- What is taken of the classes that have accounts is what the classes with fees are given. -/
theorem sum_classes {fees : List (String × (Decimal × Decimal))} (distinct : (fees.map (·.1)).Nodup)
    (given : ∀ fee ∈ fees, fee.2.1 + fee.2.2 = 0 ∨
      ((inClass fee.1 postPnl).map (·.ownershipPct)).sum ≠ 0) :
    ((postPnl.map (·.2)).eraseDups.map fun cls =>
      taken (inClass cls postPnl) (((fees.lookup cls).getD (0, 0)).1 + ((fees.lookup cls).getD (0, 0)).2)).sum =
      (fees.map fun fee => fee.2.1 + fee.2.2).sum := by
  let charge := fun cls => ((fees.lookup cls).getD (0, 0)).1 + ((fees.lookup cls).getD (0, 0)).2
  have whole : ∀ cls, taken (inClass cls postPnl) (charge cls) = charge cls := by
    intro cls
    refine taken_eq ?_
    cases found : fees.lookup cls with
    | none => exact .inl (by simp [charge, found])
    | some fee =>
      obtain ⟨before, after, rfl, -⟩ := List.lookup_eq_some_iff.mp found
      have kept := given (cls, fee) (by simp)
      simpa [charge, found] using kept
  have unlisted : ∀ cls, cls ∉ fees.map (·.1) → charge cls = 0 := by
    intro cls absent
    have gone : fees.lookup cls = none := by
      refine List.lookup_eq_none_iff.mpr fun entry inside => ?_
      exact bne_iff_ne.mpr fun same => absent (List.mem_map.mpr ⟨entry, inside, same.symm⟩)
    simp [charge, gone]
  -- a fee that meets no account is zero, or something would not be given out
  have unheld : ∀ cls, cls ∈ fees.map (·.1) → cls ∉ postPnl.map (·.2) → charge cls = 0 := by
    intro cls listed absent
    have nothing := whole cls
    rw [inClass_absent absent] at nothing
    exact nothing.symm
  have classes : (postPnl.map (·.2)).eraseDups.Nodup := nodup_eraseDups _
  calc ((postPnl.map (·.2)).eraseDups.map fun cls => taken (inClass cls postPnl) (charge cls)).sum
      = ((postPnl.map (·.2)).eraseDups.map charge).sum := by rw [List.map_congr_left fun cls _ => whole cls]
    _ = ∑ cls ∈ (postPnl.map (·.2)).eraseDups.toFinset, charge cls :=
      (List.sum_toFinset charge classes).symm
    _ = ∑ cls ∈ (fees.map (·.1)).toFinset, charge cls := by
      refine Finset.sum_congr_of_eq_on_inter (fun cls held unlisted' => ?_) (fun cls listed absent => ?_)
        fun _ _ _ => rfl
      · exact unlisted cls (by simpa using unlisted')
      · exact unheld cls (by simpa using listed) (by simpa using absent)
    _ = ((fees.map (·.1)).map charge).sum := List.sum_toFinset charge distinct
    _ = (fees.map fun fee => fee.2.1 + fee.2.2).sum := by
      rw [List.map_map]
      refine congrArg _ (List.map_congr_left fun fee member => ?_)
      simp [charge, (mem_iff_lookup distinct).mp member]

theorem DailyAllocation.GivesAll.takenFees_eq (gives : d.GivesAll session current) :
    d.takenFees (d.afterPnl session current) = d.fees := by
  obtain ⟨-, given⟩ := gives
  unfold DailyAllocation.takenFees DailyAllocation.fees
  rcases classes : d.classFees with _ | _ | ⟨fee, rest⟩
  · rw [classes] at given
    refine taken_eq ?_
    rw [List.map_map]
    exact given
  · rw [classes] at given
    refine taken_eq ?_
    rw [List.map_map]
    exact given
  · rw [classes] at given
    exact sum_classes given.1 given.2

end GivenOut

/-! ## The call -/

section Call

variable {env : Env} {session : Option Nat} {d : DailyAllocation}

/-- Behind the rows that there were, there are these. -/
def Added (before : Nat) (rows : List CapitalAccountRecord) (db : Database) : Prop :=
  before ≤ db.accounts.length ∧ db.accounts.drop before = rows

/-- Some statement or event raises. -/
def Interrupted (env : Env) : Prop := ∃ op, env.fails op ≠ none

theorem Added.commit {before : Nat} {rows : List CapitalAccountRecord} (stored : Stored rows)
    {db : Database} (added : Added before rows db) : Added before rows (db.commit session) := by
  obtain ⟨longer, behind⟩ := added
  refine ⟨by simpa [Database.commit] using longer, ?_⟩
  rw [Database.commit, ← List.map_drop, behind]
  exact stored.commit_eq session

theorem triple_added {before : Nat} {rows : List CapitalAccountRecord} (stored : Stored rows)
    (s : Snapshot) :
    Triple (Added before rows) (d.write env session s)
      (fun _ => Added before (rows ++ [(d.row s).columns])) (fun _ => Interrupted env) := by
  have whole : Stored (rows ++ [(d.row s).columns]) :=
    List.forall_mem_append.mpr ⟨stored, stored_rows d [s]⟩
  have inserted : Triple (Added before rows) (insertAccount env session (.allocating s.id) (d.row s))
      (fun _ => Added before (rows ++ [(d.row s).columns])) (fun _ => Interrupted env) := by
    refine triple_insertAccount (fun failing _ _ => ⟨_, failing⟩) (fun _ db added => ?_)
      fun failing _ _ => ⟨_, failing⟩
    obtain ⟨longer, behind⟩ := added
    refine Added.commit whole ⟨?_, ?_⟩
    · exact longer.trans (by simp)
    · change (db.accounts ++ [(d.row s).columns]).drop before = rows ++ [(d.row s).columns]
      rw [List.drop_append_of_le_length longer, behind]
  refine .bind _ inserted fun accountId => ?_
  refine (Triple.forM_same (fun entry => ?_) _).weaken (fun _ added => added) (fun _ _ added => added)
    fun _ failing => failing
  dsimp only
  split
  · exact .bind _ (triple_insertTransaction (fun failing _ _ => ⟨_, failing⟩)
      (fun db added => added.commit whole) fun failing _ _ => ⟨_, failing⟩) fun _ _ added => added
  · exact fun _ added => added

theorem triple_addedAll {before : Nat} {rows : List CapitalAccountRecord} (stored : Stored rows)
    (snapshots : List Snapshot) :
    Triple (Added before rows) (snapshots.forM (d.write env session))
      (fun _ => Added before (rows ++ d.rows snapshots)) (fun _ => Interrupted env) := by
  induction snapshots generalizing rows with
  | nil =>
    intro db added
    rw [show d.rows [] = [] from rfl, List.append_nil]
    exact added
  | cons s rest ih =>
    refine .bind _ (triple_added stored s) fun _ => ?_
    have whole : Stored (rows ++ [(d.row s).columns]) :=
      List.forall_mem_append.mpr ⟨stored, stored_rows d [s]⟩
    have later := ih whole
    rw [List.append_assoc] at later
    exact later

/-- The capital that the row closes with is what it opened with and what was allocated to it. -/
def CapitalAccountRecord.Balances (a : CapitalAccountRecord) : Prop :=
  a.endingCapital = a.beginningCapital + a.pnlAllocation -
    (a.managementFeeAllocation + a.performanceFeeAllocation)

/-- What the allocation of a day writes: rows that balance, of the whole capital there was, of the
P&L where the percentages of the accounts do not sum to zero, and less the fees where those of
their class do not. The fees of a class without accounts are given out to nobody. -/
def DailyAllocation.Conserves (d : DailyAllocation) (session : Option Nat)
    (current : List (CapitalAccountRecord × Nat)) (rows : List CapitalAccountRecord) : Prop :=
  (∀ row ∈ rows, row.Balances) ∧
    (rows.map (·.endingCapital)).sum = (current.map (·.1.endingCapital)).sum +
      taken (holdings session current) d.fundPnl - d.takenFees (d.afterPnl session current) ∧
    (d.GivesAll session current → (rows.map (·.endingCapital)).sum =
      (current.map (·.1.endingCapital)).sum + d.fundPnl - d.fees)

theorem snapshots_conserve {current : List (CapitalAccountRecord × Nat)} {snapshots : List Snapshot}
    (distinct : (current.map (·.2)).Nodup) (computed : d.snapshots session current = .ok snapshots) :
    d.Conserves session current (snapshots.map d.row) := by
  have sums := sum_snapshots distinct computed
  have same : ((snapshots.map d.row).map (·.endingCapital)).sum =
      (snapshots.map (·.charge.capital)).sum := by
    rw [List.map_map]
    rfl
  refine ⟨fun row member => ?_, same.trans sums, fun gives => ?_⟩
  · obtain ⟨s, inside, rfl⟩ := List.mem_map.mp member
    exact (snapshots_balanced distinct computed s inside).trans (sub_sub _ _ _)
  · rw [same, sums, gives.takenFees_eq, taken_eq gives.1]

/-- An allocation returns unless a statement raises, and stores the cents of rows that conserve the
capital there was. -/
theorem allocateDaily_conserves (env : Env) (session : Option Nat) (d : DailyAllocation)
    (db : Database) :
    match allocateDaily env session d db with
    | .ok count after => ∃ rows, rows.length = count ∧
        after.accounts.drop db.accounts.length = rows.map CapitalAccountRecord.columns ∧
        d.Conserves session (latestByFund db.accounts) rows
    | .error _ _ => Interrupted env := by
  have added : Triple (fun s => s = db) (allocateDaily env session d)
      (fun count after => ∃ rows, rows.length = count ∧
        after.accounts.drop db.accounts.length = rows.map CapitalAccountRecord.columns ∧
        d.Conserves session (latestByFund db.accounts) rows) (fun _ => Interrupted env) := by
    obtain ⟨snapshots, computed, -⟩ := snapshots_ok d session (ids_distinct db.accounts)
    have conserves := snapshots_conserve (ids_distinct db.accounts) computed
    refine .bind _ (triple_awaited fun failing _ _ => ⟨_, failing⟩) fun _ => .assume fun _ => ?_
    refine .bind _ triple_get fun seen => ?_
    dsimp only
    split
    · -- without accounts nothing is written
      rename_i none_held
      rintro s ⟨rfl, rfl⟩
      rw [none_held] at computed conserves ⊢
      cases computed
      exact ⟨[], rfl, by simp, conserves⟩
    · rintro s ⟨rfl, rfl⟩
      rw [computed]
      have rest : Triple (Added seen.accounts.length []) (snapshots.forM (d.write env session) >>= fun _ => do
          await env (.publishCapital none)
          return snapshots.length) (fun count after => ∃ rows, rows.length = count ∧
            after.accounts.drop seen.accounts.length = rows.map CapitalAccountRecord.columns ∧
            d.Conserves session (latestByFund seen.accounts) rows) (fun _ => Interrupted env) := by
        refine .bind _ (triple_addedAll (List.forall_mem_nil _) snapshots) fun _ => ?_
        refine .bind _ (triple_awaited fun failing _ _ => ⟨_, failing⟩) fun _ => .assume fun _ => ?_
        rintro after ⟨-, behind⟩
        refine ⟨snapshots.map d.row, by simp, behind.trans ?_, conserves⟩
        rw [List.nil_append, DailyAllocation.rows, List.map_map]
        rfl
      exact rest seen ⟨le_rfl, by simp⟩
  have reached := added db rfl
  cases ran : allocateDaily env session d db with
  | ok count after =>
    rw [ran] at reached
    exact reached
  | error e after =>
    rw [ran] at reached
    exact reached

/-- An account that has not been given its part of the fund yet. -/
def newcomer : CapitalAccountRecord :=
  { investorId := .ofNat 1, shareClass := "default", contributions := 1000
    endingCapital := 1000, sharesHeld := 10, effectiveDate := 1 }

def dayOfGains : DailyAllocation := ⟨100, 0, 0, 100, 2, none⟩

/-- The rows that the allocation of the day of gains writes. -/
def gained : List CapitalAccountRecord :=
  (ended (allocateDaily {} none dayOfGains) { accounts := [newcomer] }).accounts.drop 1

/-- The P&L is given to nobody, and the capital is not what it should be. -/
theorem newcomer_givenNothing : gained.map (·.investorId) = [newcomer.investorId] ∧
    (gained.map (·.endingCapital)).sum ≠
      newcomer.endingCapital + dayOfGains.fundPnl - dayOfGains.fees := by
  decide +kernel

end Call

end MiniHedge.CapitalAccounts
