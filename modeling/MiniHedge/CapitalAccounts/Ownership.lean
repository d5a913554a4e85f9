import MiniHedge.CapitalAccounts.Service
import MiniHedge.Library.Mapping
import Mathlib.Data.Finset.Max

/-! The ownership that is computed from the capital, and the rows that it is computed of. -/

set_option autoImplicit false

namespace MiniHedge.CapitalAccounts

open MiniHedge.Python MiniHedge.Library MiniHedge.Shared
open MiniHedge.CashManagement (Date)

/-! ## Percentages -/

/-- The percentages of accounts with these capitals, in their order. -/
def percentages (capitals : List Decimal) : List Decimal :=
  if capitals.sum ≤ 0 then capitals.map fun _ => quantize 6 .halfUp (1 / capitals.length)
  else apportion (fun capital => quantize 6 .halfUp (capital / capitals.sum)) 1 0 capitals

theorem length_percentages (capitals : List Decimal) :
    (percentages capitals).length = capitals.length := by
  unfold percentages
  split
  · rw [List.length_map]
  · rw [length_apportion]

theorem recomputeOwnership_eq (accounts : List (Nat × Decimal)) :
    recomputeOwnership accounts = (accounts.map (·.1)).zip (percentages (accounts.map (·.2))) := by
  simp only [recomputeOwnership, percentages]
  split
  · rw [List.map_map, List.length_map, List.zip_map']
    rfl
  · rw [← apportion_map _ _ (fun account : Nat × Decimal => account.2), List.zip_eq_zipWith,
      List.zipWith_map_left]

theorem onGrid_percentages (capitals : List Decimal) : ∀ pct ∈ percentages capitals, OnGrid 6 pct := by
  unfold percentages
  split
  · intro pct member
    obtain ⟨capital, -, rfl⟩ := List.mem_map.mp member
    exact onGrid_quantize _ _ _
  · refine forall_apportion _ _ (fun _ => onGrid_quantize _ _ _) ⟨10 ^ 6, ?_⟩ (fun _ _ => OnGrid.sub) _
    norm_num

theorem sum_map_div (capitals : List Decimal) (total : Decimal) :
    (capitals.map (· / total)).sum = capitals.sum / total := by
  induction capitals with
  | nil => simp
  | cons capital rest ih => rw [List.map_cons, List.sum_cons, List.sum_cons, ih, add_div]

/-- The percentages sum to one, and each is the part of the total up to their rounding, which the
last one carries. -/
theorem percentages_of_pos {capitals : List Decimal} (positive : 0 < capitals.sum) :
    (percentages capitals).sum = 1 ∧
      List.Forall₂ (fun capital pct =>
          |pct - capital / capitals.sum| ≤ capitals.length * (1 / 2 / 10 ^ 6))
        capitals (percentages capitals) := by
  have nonempty : capitals ≠ [] := by
    rintro rfl
    exact lt_irrefl _ positive
  rw [percentages, if_neg (not_le.mpr positive)]
  refine ⟨by rw [sum_apportion _ _ _ nonempty, sub_zero], ?_⟩
  have rounded : ∀ capital : Decimal,
      |quantize 6 .halfUp (capital / capitals.sum) - capital / capitals.sum| ≤ 1 / 2 / 10 ^ 6 := by
    intro capital
    exact quantize_near 6 .halfUp (capital / capitals.sum)
  have exact : (capitals.map (· / capitals.sum)).sum = 1 := by
    rw [sum_map_div, div_self positive.ne']
  refine (apportion_close rounded 0 capitals).imp fun capital pct close => ?_
  rwa [exact, sub_zero, sub_self, abs_zero, zero_add, nsmul_eq_mul] at close

/-- What a dictionary answers for its keys, in their order. -/
theorem map_lookup {ν : Type} {d : List (Nat × ν)} (distinct : (d.map (·.1)).Nodup) (other : ν) :
    (d.map (·.1)).map (fun key => (d.lookup key).getD other) = d.map (·.2) := by
  rw [List.map_map]
  refine List.map_congr_left fun entry member => ?_
  have found : d.lookup entry.1 = some entry.2 := (mem_iff_lookup distinct).mp member
  rw [Function.comp_apply, found, Option.getD_some]

/-- The percentages that a recomputation answers for the ids, in their order. -/
theorem map_recomputeOwnership {accounts : List (Nat × Decimal)}
    (distinct : (accounts.map (·.1)).Nodup) :
    (accounts.map (·.1)).map (fun id => ((recomputeOwnership accounts).lookup id).getD 0) =
      percentages (accounts.map (·.2)) := by
  have lengths : (accounts.map (·.1)).length = (percentages (accounts.map (·.2))).length := by
    rw [length_percentages, List.length_map, List.length_map]
  have keys : (recomputeOwnership accounts).map (·.1) = accounts.map (·.1) := by
    rw [recomputeOwnership_eq]
    exact List.map_fst_zip lengths.le
  have values : (recomputeOwnership accounts).map (·.2) = percentages (accounts.map (·.2)) := by
    rw [recomputeOwnership_eq]
    exact List.map_snd_zip lengths.ge
  have found := map_lookup (keys ▸ distinct) (0 : Decimal)
  rwa [keys, values] at found

/-! ## The latest rows -/

section Latest

variable {accounts rows : List CapitalAccountRecord} {a b : CapitalAccountRecord} {i j : Nat}

theorem mem_latestByFund : (a, i) ∈ latestByFund accounts ↔ accounts[i]? = some a ∧
    ∀ b ∈ accounts, b.investorId = a.investorId → b.effectiveDate ≤ a.effectiveDate := by
  simp only [latestByFund, List.mem_filter, List.mem_zipIdx_iff_getElem?, List.all_eq_true,
    decide_eq_true_eq]

theorem exists_latest (member : b ∈ accounts) :
    ∃ entry ∈ latestByFund accounts, entry.1.investorId = b.investorId ∧
      b.effectiveDate ≤ entry.1.effectiveDate := by
  let own := (accounts.filter (·.investorId = b.investorId)).toFinset
  have inside : b ∈ own := by simp [own, member]
  obtain ⟨a, held, latest⟩ := own.exists_max_image (·.effectiveDate) ⟨b, inside⟩
  simp only [own, List.mem_toFinset, List.mem_filter, decide_eq_true_eq] at held latest
  obtain ⟨i, place⟩ := List.mem_iff_getElem?.mp held.1
  refine ⟨(a, i), mem_latestByFund.mpr ⟨place, fun c other same => ?_⟩, held.2, latest b ⟨member, rfl⟩⟩
  exact latest c ⟨other, same.trans held.2⟩

/-- The latest row of each investor: of those of the latest date, the one that was inserted last. -/
def latestRows (accounts : List CapitalAccountRecord) : List (CapitalAccountRecord × Nat) :=
  accounts.zipIdx.filter fun (a, i) => accounts.zipIdx.all fun (b, j) =>
    b.investorId = a.investorId →
      b.effectiveDate < a.effectiveDate ∨ b.effectiveDate = a.effectiveDate ∧ j ≤ i

/-- An investor has one row of the latest date. -/
def Untied (accounts : List CapitalAccountRecord) : Prop :=
  ((latestByFund accounts).map (·.1.investorId)).Nodup

theorem Untied.latestRows_eq (untied : Untied accounts) : latestRows accounts = latestByFund accounts := by
  refine List.filter_congr fun entry member => ?_
  obtain ⟨a, i⟩ := entry
  have place := List.mem_zipIdx_iff_getElem?.mp member
  rw [Bool.eq_iff_iff]
  simp only [List.all_eq_true, decide_eq_true_eq]
  constructor
  · intro last b inside same
    obtain ⟨j, at_j⟩ := List.mem_iff_getElem?.mp inside
    rcases last (b, j) (List.mem_zipIdx_iff_getElem?.mpr at_j) same with earlier | ⟨tied, -⟩
    · exact earlier.le
    · exact tied.le
  · intro latest entry inside same
    obtain ⟨b, j⟩ := entry
    have at_j := List.mem_zipIdx_iff_getElem?.mp inside
    rcases (latest b (List.mem_of_getElem? at_j) same).lt_or_eq with earlier | tied
    · exact .inl earlier
    · refine .inr ⟨tied, ?_⟩
      have first : (a, i) ∈ latestByFund accounts := mem_latestByFund.mpr ⟨place, latest⟩
      have second : (b, j) ∈ latestByFund accounts :=
        mem_latestByFund.mpr ⟨at_j, fun c member own => tied ▸ latest c member (own.trans same)⟩
      have one := List.inj_on_of_nodup_map untied second first same
      exact (congrArg Prod.snd one).le

/-! ### Rows that are inserted -/

theorem latestByFund_append : latestByFund (accounts ++ rows) =
    (accounts.zipIdx.filter fun (a, _) => (accounts ++ rows).all fun b =>
      b.investorId = a.investorId → b.effectiveDate ≤ a.effectiveDate) ++
    ((rows.zipIdx accounts.length).filter fun (a, _) => (accounts ++ rows).all fun b =>
      b.investorId = a.investorId → b.effectiveDate ≤ a.effectiveDate) := by
  rw [latestByFund, List.zipIdx_append, List.filter_append, Nat.zero_add]

/-- Rows that are dated before rows of their investors are none of the latest. -/
theorem latestByFund_behind (behind : ∀ r ∈ rows, ∃ b ∈ accounts, b.investorId = r.investorId ∧
    r.effectiveDate < b.effectiveDate) : latestByFund (accounts ++ rows) = latestByFund accounts := by
  rw [latestByFund_append]
  have old : (accounts.zipIdx.filter fun (a, _) => (accounts ++ rows).all fun b =>
      b.investorId = a.investorId → b.effectiveDate ≤ a.effectiveDate) = latestByFund accounts := by
    refine List.filter_congr fun entry member => ?_
    rw [Bool.eq_iff_iff]
    simp only [List.all_eq_true, decide_eq_true_eq]
    refine ⟨fun latest b inside => latest b (List.mem_append_left _ inside), fun latest b inside same => ?_⟩
    rcases List.mem_append.mp inside with before | new
    · exact latest b before same
    · obtain ⟨c, held, own, later⟩ := behind b new
      exact later.le.trans (latest c held (own.trans same))
  have new : ((rows.zipIdx accounts.length).filter fun (a, _) => (accounts ++ rows).all fun b =>
      b.investorId = a.investorId → b.effectiveDate ≤ a.effectiveDate) = [] := by
    refine List.filter_eq_nil_iff.mpr fun entry member latest => ?_
    obtain ⟨c, held, own, later⟩ := behind entry.1 (List.fst_mem_of_mem_zipIdx member)
    simp only [List.all_eq_true, decide_eq_true_eq] at latest
    exact absurd (latest c (List.mem_append_left _ held) own) (not_le.mpr later)
  rw [old, new, List.append_nil]

/-- A row that is dated before none of its investor stands beside those of its date, in the place of
those before it. -/
theorem latestByFund_landed
    (reach : ∀ b ∈ accounts, b.investorId = a.investorId → b.effectiveDate ≤ a.effectiveDate) :
    latestByFund (accounts ++ [a]) =
      ((latestByFund accounts).filter fun entry =>
        ¬ (entry.1.investorId = a.investorId ∧ entry.1.effectiveDate < a.effectiveDate)) ++
        [(a, accounts.length)] := by
  rw [latestByFund_append]
  congr 1
  · rw [latestByFund, List.filter_filter]
    refine List.filter_congr fun entry member => ?_
    rw [Bool.eq_iff_iff]
    simp only [List.all_eq_true, decide_eq_true_eq, Bool.and_eq_true]
    constructor
    · intro latest
      refine ⟨fun earlier => ?_, fun b inside => latest b (List.mem_append_left _ inside)⟩
      have above := latest a (List.mem_append_right _ (List.mem_singleton_self a)) earlier.1.symm
      exact absurd above (not_le.mpr earlier.2)
    · rintro ⟨other, latest⟩ b inside same
      rcases List.mem_append.mp inside with before | new
      · exact latest b before same
      · rw [List.mem_singleton.mp new] at same ⊢
        exact not_lt.mp fun earlier => other ⟨same.symm, earlier⟩
  · refine List.filter_eq_self.mpr fun entry member => ?_
    rw [List.zipIdx_singleton, List.mem_singleton] at member
    subst member
    simp only [List.all_eq_true, decide_eq_true_eq]
    intro b inside same
    rcases List.mem_append.mp inside with before | new
    · exact reach b before same
    · rw [List.mem_singleton.mp new]

/-- A row that is dated after those of its investor takes their place. -/
theorem latestByFund_ahead
    (ahead : ∀ b ∈ accounts, b.investorId = a.investorId → b.effectiveDate < a.effectiveDate) :
    latestByFund (accounts ++ [a]) =
      ((latestByFund accounts).filter fun entry => entry.1.investorId ≠ a.investorId) ++
        [(a, accounts.length)] := by
  rw [latestByFund_landed fun b member own => (ahead b member own).le]
  congr 1
  refine List.filter_congr fun entry member => ?_
  have held : entry.1 ∈ accounts := List.fst_mem_of_mem_zipIdx (List.mem_of_mem_filter member)
  exact decide_eq_decide.mpr (not_congr (and_iff_left_of_imp (ahead entry.1 held)))

/-- Rows of one later date for every investor take the place of all. -/
theorem latestByFund_renewed (date : Date) (later : ∀ b ∈ accounts, b.effectiveDate < date)
    (dated : ∀ r ∈ rows, r.effectiveDate = date)
    (every : ∀ b ∈ accounts, ∃ r ∈ rows, r.investorId = b.investorId) :
    latestByFund (accounts ++ rows) = rows.zipIdx accounts.length := by
  rw [latestByFund_append]
  have old : (accounts.zipIdx.filter fun (a, _) => (accounts ++ rows).all fun b =>
      b.investorId = a.investorId → b.effectiveDate ≤ a.effectiveDate) = [] := by
    refine List.filter_eq_nil_iff.mpr fun entry member latest => ?_
    have held : entry.1 ∈ accounts := List.fst_mem_of_mem_zipIdx member
    obtain ⟨r, inside, own⟩ := every entry.1 held
    simp only [List.all_eq_true, decide_eq_true_eq] at latest
    have above := latest r (List.mem_append_right _ inside) own
    rw [dated r inside] at above
    exact absurd above (not_le.mpr (later entry.1 held))
  rw [old, List.nil_append]
  refine List.filter_eq_self.mpr fun entry member => ?_
  simp only [List.all_eq_true, decide_eq_true_eq]
  intro b inside _
  rw [dated entry.1 (List.fst_mem_of_mem_zipIdx member)]
  rcases List.mem_append.mp inside with before | new
  · exact (later b before).le
  · exact (dated b new).le

/-- What is written in the other columns does not matter. -/
theorem latestByFund_mapIdx {f : Nat → CapitalAccountRecord → CapitalAccountRecord}
    (investor : ∀ i a, (f i a).investorId = a.investorId)
    (date : ∀ i a, (f i a).effectiveDate = a.effectiveDate) :
    latestByFund (accounts.mapIdx f) = (latestByFund accounts).map fun (a, i) => (f i a, i) := by
  have places : (accounts.mapIdx f).zipIdx = accounts.zipIdx.map fun (a, i) => (f i a, i) := by
    apply List.ext_getElem?
    intro k
    simp only [List.getElem?_zipIdx, List.getElem?_mapIdx, List.getElem?_map, Nat.zero_add]
    cases accounts[k]? <;> rfl
  rw [latestByFund, places, List.filter_map, latestByFund]
  refine congrArg _ (List.filter_congr fun entry _ => ?_)
  rw [Bool.eq_iff_iff]
  simp only [Function.comp_apply, List.all_eq_true, decide_eq_true_eq, List.mem_mapIdx, investor, date]
  constructor
  · intro latest b inside same
    obtain ⟨j, place, rfl⟩ := List.mem_iff_getElem.mp inside
    have above := latest _ ⟨j, place, rfl⟩
    rw [investor, date] at above
    exact above same
  · rintro latest _ ⟨j, place, rfl⟩
    rw [investor, date]
    exact latest _ (List.getElem_mem place)

end Latest

/-! ## What a recomputation writes -/

section Rewritten

variable {accounts : List CapitalAccountRecord} {a : CapitalAccountRecord} {session : Option Nat}
  {owner id : Nat} {businessDate : Date}

/-- The ownership of the latest rows, by their ids. -/
def ownershipOf (accounts : List CapitalAccountRecord) : List (Nat × Decimal) :=
  recomputeOwnership ((latestByFund accounts).map fun (a, id) => (id, a.endingCapital))

def computedPct (accounts : List CapitalAccountRecord) (id : Nat) : Decimal :=
  ((ownershipOf accounts).lookup id).getD 0

/-- What the flush of a recomputation writes. -/
def ownershipChanges (session : Option Nat) (businessDate : Date)
    (accounts : List CapitalAccountRecord) : List (Nat × Decimal) :=
  (((latestByFund accounts).filter fun (a, _) => a.effectiveDate = businessDate).filter fun (a, id) =>
    computedPct accounts id ≠ a.ownershipSeen session).map fun (_, id) => (id, computedPct accounts id)

/-- The accounts when a recomputation has returned. -/
def rewritten (session : Option Nat) (businessDate : Date) (accounts : List CapitalAccountRecord) :
    List CapitalAccountRecord :=
  match session with
  | none => accounts
  | some owner => writeOwnership owner (ownershipChanges session businessDate accounts) accounts

/-- The ownership of the latest rows is what is computed from their capital. -/
def Apportioned (accounts : List CapitalAccountRecord) : Prop :=
  (latestByFund accounts).map (·.1.ownershipSeen none) =
    percentages ((latestByFund accounts).map (·.1.endingCapital))

/-- Every row has an ownership, and no session has written another. -/
def Stored (accounts : List CapitalAccountRecord) : Prop :=
  ∀ a ∈ accounts, ∃ pct, a.ownershipPct = ⟨some pct, none⟩

theorem ids_distinct (accounts : List CapitalAccountRecord) :
    ((latestByFund accounts).map (·.2)).Nodup := by
  refine (List.Sublist.map _ List.filter_sublist).nodup ?_
  rw [List.zipIdx_map_snd]
  exact List.nodup_range'

theorem map_computedPct (accounts : List CapitalAccountRecord) :
    (latestByFund accounts).map (fun entry => computedPct accounts entry.2) =
      percentages ((latestByFund accounts).map (·.1.endingCapital)) := by
  have keys : ((latestByFund accounts).map fun (a, id) => (id, a.endingCapital)).map (·.1) =
      (latestByFund accounts).map (·.2) := by
    rw [List.map_map]
    rfl
  have found := map_recomputeOwnership (keys ▸ ids_distinct accounts)
  rw [keys, List.map_map, List.map_map] at found
  exact found

theorem Stored.seen_eq (stored : Stored accounts) (member : a ∈ accounts) :
    a.ownershipSeen session = a.ownershipSeen none := by
  obtain ⟨pct, same⟩ := stored a member
  rw [CapitalAccountRecord.ownershipSeen, CapitalAccountRecord.ownershipSeen, same]
  rfl

theorem mem_of_mem_latestByFund {entry : CapitalAccountRecord × Nat}
    (member : entry ∈ latestByFund accounts) : entry.1 ∈ accounts :=
  List.fst_mem_of_mem_zipIdx (List.mem_of_mem_filter member)

/-- Where the ownership is what is computed, nothing is written. -/
theorem Apportioned.unchanged (apportioned : Apportioned accounts) (stored : Stored accounts)
    (session : Option Nat) (businessDate : Date) :
    ownershipChanges session businessDate accounts = [] := by
  have same := List.map_inj_left.mp (apportioned.trans (map_computedPct accounts).symm)
  rw [ownershipChanges, List.map_eq_nil_iff]
  refine List.filter_eq_nil_iff.mpr fun entry member changed => ?_
  have latest : entry ∈ latestByFund accounts := List.mem_of_mem_filter member
  have kept : entry.1.ownershipSeen session = computedPct accounts entry.2 :=
    (stored.seen_eq (mem_of_mem_latestByFund latest)).trans (same entry latest)
  exact absurd kept.symm (of_decide_eq_true changed)

theorem Apportioned.rewritten_eq (apportioned : Apportioned accounts) (stored : Stored accounts)
    (session : Option Nat) (businessDate : Date) : rewritten session businessDate accounts = accounts := by
  unfold rewritten
  cases session with
  | none => rfl
  | some owner =>
    dsimp only
    rw [apportioned.unchanged stored]
    rfl

theorem ownershipChanges_distinct (session : Option Nat) (businessDate : Date)
    (accounts : List CapitalAccountRecord) :
    ((ownershipChanges session businessDate accounts).map (·.1)).Nodup := by
  rw [ownershipChanges, List.map_map]
  refine (List.Sublist.map _ ?_).nodup (ids_distinct accounts)
  exact List.filter_sublist.trans List.filter_sublist

/-- What a latest row of the date has after the flush is what is computed. -/
theorem lookup_ownershipChanges (latest : (a, id) ∈ latestByFund accounts)
    (dated : a.effectiveDate = businessDate) :
    ((ownershipChanges session businessDate accounts).lookup id).getD (a.ownershipSeen session) =
      computedPct accounts id := by
  have distinct := ownershipChanges_distinct session businessDate accounts
  by_cases same : computedPct accounts id = a.ownershipSeen session
  · rw [same]
    cases found : (ownershipChanges session businessDate accounts).lookup id with
    | none => rfl
    | some pct =>
      have member := (mem_iff_lookup distinct).mpr found
      obtain ⟨⟨b, k⟩, inside, own⟩ := List.mem_map.mp member
      cases own
      exact same
  · have member : (id, computedPct accounts id) ∈ ownershipChanges session businessDate accounts := by
      refine List.mem_map.mpr ⟨(a, id), List.mem_filter.mpr ⟨List.mem_filter.mpr ⟨latest, ?_⟩, ?_⟩, rfl⟩
      · simpa using dated
      · simpa using same
    rw [(mem_iff_lookup distinct).mp member, Option.getD_some]

end Rewritten

end MiniHedge.CapitalAccounts
