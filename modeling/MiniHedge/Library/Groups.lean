import MiniHedge.Library.Mapping
import Mathlib.Data.List.Nodup
import Mathlib.Data.List.Perm.Basic
import Mathlib.Data.List.Forall2

/-! Lists that are taken apart by a key, group after group, and put together again; and
lists that go side by side, element for element. -/

set_option autoImplicit false

namespace MiniHedge.Library

section Groups

variable {α κ : Type} [DecidableEq κ]

theorem nodup_eraseDups (keys : List κ) : keys.eraseDups.Nodup := by
  induction length : keys.length using Nat.strongRecOn generalizing keys with
  | _ n ih =>
    cases keys with
    | nil => simp
    | cons k rest =>
      have fewer : (rest.filter fun b => !b == k).length < n := by
        rw [← length]
        exact Nat.lt_succ_of_le (List.length_filter_le _ _)
      rw [List.eraseDups_cons, List.nodup_cons]
      exact ⟨by simp, ih _ fewer _ rfl⟩

/-- One key, and the others. -/
theorem perm_others {keys : List κ} (distinct : keys.Nodup) {k : κ} (occurs : k ∈ keys) :
    keys.Perm (k :: keys.filter (· ≠ k)) := by
  have apart : (k :: keys.filter (· ≠ k)).Nodup := List.nodup_cons.mpr ⟨by simp, distinct.filter _⟩
  rw [List.perm_ext_iff_of_nodup distinct apart]
  intro other
  by_cases own : other = k
  · simp [own, occurs]
  · simp [own]

theorem prod_others {M : Type} [CommMonoid M] (f : κ → M) {keys : List κ} (distinct : keys.Nodup) {k : κ}
    (occurs : k ∈ keys) : (keys.map f).prod = f k * ((keys.filter (· ≠ k)).map f).prod := by
  rw [((perm_others distinct occurs).map f).prod_eq, List.map_cons, List.prod_cons]

namespace Dictionary

variable {ν : Type}

omit [DecidableEq κ] in
theorem map_fst_filterMap (value : κ → Option ν) (keys : List κ) :
    (keys.filterMap fun k => (value k).map (k, ·)).map (·.1) = keys.filter fun k => (value k).isSome := by
  induction keys with
  | nil => rfl
  | cons k rest ih =>
    cases found : value k with
    | none => simp [found, ih]
    | some v => simp [found, ih]

/-- `for k in keys: if ...: d[k] = ...`, where the value depends on the key alone. -/
def ofKeys (keys : List κ) (value : κ → Option ν) : Dictionary κ ν where
  items := keys.eraseDups.filterMap fun k => (value k).map (k, ·)
  distinct := by
    rw [map_fst_filterMap]
    exact (nodup_eraseDups keys).filter _

theorem mem_ofKeys {keys : List κ} {value : κ → Option ν} {k : κ} {v : ν} :
    (k, v) ∈ (ofKeys keys value).items ↔ k ∈ keys ∧ value k = some v := by
  rw [ofKeys, List.mem_filterMap]
  constructor
  · rintro ⟨other, inside, found⟩
    obtain ⟨w, held, same⟩ := Option.map_eq_some_iff.mp found
    cases same
    exact ⟨List.mem_eraseDups.mp inside, held⟩
  · rintro ⟨inside, held⟩
    exact ⟨k, List.mem_eraseDups.mpr inside, by rw [held, Option.map_some]⟩

@[simp] theorem get?_ofKeys (keys : List κ) (value : κ → Option ν) (k : κ) :
    (ofKeys keys value).get? k = if k ∈ keys then value k else none := by
  apply Option.ext
  intro v
  rw [← mem_items, mem_ofKeys]
  by_cases inside : k ∈ keys
  · simp [inside]
  · simp [inside]

end Dictionary

/-- The groups of all keys are the list, in another order. -/
theorem groups_perm (key : α → κ) {keys : List κ} (distinct : keys.Nodup) {xs : List α}
    (covered : ∀ x ∈ xs, key x ∈ keys) :
    (keys.flatMap fun k => xs.filter fun x => key x = k).Perm xs := by
  induction keys generalizing xs with
  | nil =>
    have empty : xs = [] := List.eq_nil_iff_forall_not_mem.mpr fun x member => by
      simpa using covered x member
    simp [empty]
  | cons k rest ih =>
    obtain ⟨absent, distinct⟩ := List.nodup_cons.mp distinct
    have others : rest.flatMap (fun k' => xs.filter fun x => key x = k') =
        rest.flatMap fun k' => (xs.filter fun x => !decide (key x = k)).filter fun x => key x = k' := by
      refine List.flatMap_congr fun k' inside => ?_
      rw [List.filter_filter]
      refine List.filter_congr fun x _ => ?_
      by_cases same : key x = k'
      · have other : k' ≠ k := fun equal => absent (equal ▸ inside)
        simp [same, other]
      · simp [same]
    rw [List.flatMap_cons, others]
    refine ((ih distinct fun x member => ?_).append_left _).trans (List.filter_append_perm _ xs)
    obtain ⟨inside, other⟩ := List.mem_filter.mp member
    exact (List.mem_cons.mp (covered x inside)).resolve_left (by simpa using other)

/-- The groups of the keys that occur. -/
theorem groups_eraseDups_perm (key : α → κ) (xs : List α) :
    ((xs.map key).eraseDups.flatMap fun k => xs.filter fun x => key x = k).Perm xs :=
  groups_perm key (nodup_eraseDups _) fun _ member =>
    List.mem_eraseDups.mpr (List.mem_map_of_mem member)

/-- What is found by a key that no other element has. -/
theorem find?_key {key : α → κ} {xs : List α} (distinct : (xs.map key).Nodup) {x : α}
    (member : x ∈ xs) : xs.find? (key · = key x) = some x := by
  induction xs with
  | nil => cases member
  | cons first rest ih =>
    rw [List.map_cons, List.nodup_cons] at distinct
    rcases List.mem_cons.mp member with rfl | later
    · simp
    · have other : key first ≠ key x := fun same =>
        distinct.1 (same ▸ List.mem_map_of_mem later)
      rw [List.find?_cons_of_neg (by simpa using other)]
      exact ih distinct.2 later

theorem length_filter_key {key : α → κ} {xs : List α} (distinct : (xs.map key).Nodup) (k : κ) :
    (xs.filter (key · = k)).length ≤ 1 := by
  have alike : (xs.filter (key · = k)).map key = List.replicate (xs.filter (key · = k)).length k := by
    rw [List.eq_replicate_iff, List.length_map]
    refine ⟨rfl, List.forall_mem_map.mpr ?_⟩
    intro x member
    exact of_decide_eq_true (List.mem_filter.mp member).2
  rw [← List.nodup_replicate (a := k), ← alike]
  exact distinct.sublist (List.filter_sublist.map key)

theorem length_le_one_of_reverse {xs : List α} (distinct : xs.Nodup) (same : xs.reverse = xs) :
    xs.length ≤ 1 := by
  cases xs with
  | nil => exact Nat.zero_le 1
  | cons x rest =>
    cases rest with
    | nil => exact le_rfl
    | cons y rest =>
      have last : (x :: y :: rest).getLast? = some x := by rw [← List.head?_reverse, same, List.head?_cons]
      rw [List.getLast?_cons_cons] at last
      exact absurd (List.mem_of_getLast? last) (List.nodup_cons.mp distinct).1

theorem eq_of_perm_of_length_le_one {xs ys : List α} (perm : xs.Perm ys) (short : ys.length ≤ 1) :
    xs = ys := by
  cases ys with
  | nil => exact List.perm_nil.mp perm
  | cons y rest =>
    obtain rfl : rest = [] := List.length_eq_zero_iff.mp (Nat.le_zero.mp (Nat.le_of_succ_le_succ short))
    exact List.perm_singleton.mp perm

/-- What does not depend on the places of the elements. -/
theorem map_mapIdx {β γ : Type} {f : ℕ → α → β} {g : β → γ} {h : α → γ}
    (same : ∀ i x, g (f i x) = h x) (xs : List α) : (xs.mapIdx f).map g = xs.map h := by
  apply List.ext_getElem?
  intro i
  simp [same, Function.comp_def]

theorem length_filter_le_flatMap {β : Type} (f : α → List β) (xs : List α) :
    (xs.filter fun x => (f x).length ≠ 0).length ≤ (xs.flatMap f).length := by
  induction xs with
  | nil => simp
  | cons x rest ih =>
    rw [List.flatMap_cons, List.length_append, List.filter_cons]
    split
    · rename_i some_found
      have found := of_decide_eq_true some_found
      rw [List.length_cons]
      omega
    · omega

/-- There are as many in all lists as lists with something, where no list has more than one. -/
theorem length_flatMap_eq_iff {β : Type} (f : α → List β) (xs : List α) :
    (xs.flatMap f).length = (xs.filter fun x => (f x).length ≠ 0).length ↔
      ∀ x ∈ xs, (f x).length ≤ 1 := by
  induction xs with
  | nil => simp
  | cons x rest ih =>
    have below := length_filter_le_flatMap f rest
    rw [List.flatMap_cons, List.length_append, List.forall_mem_cons, List.filter_cons, ← ih]
    split
    · rename_i some_found
      have found := of_decide_eq_true some_found
      rw [List.length_cons]
      omega
    · rename_i none_found
      have nothing : (f x).length = 0 := by simpa using none_found
      omega

section Beside

variable {β γ δ : Type} {r : α → β → Prop} {t : α → γ → Prop} {xs : List α} {ys : List β}
  {zs : List γ}

theorem forall₂_zipWith (f : β → γ → δ) (first : List.Forall₂ r xs ys)
    (second : List.Forall₂ t xs zs) :
    List.Forall₂ (fun x d => ∃ y z, r x y ∧ t x z ∧ d = f y z) xs (List.zipWith f ys zs) := by
  induction first generalizing zs with
  | nil => exact .nil
  | cons related _ ih =>
    cases second with
    | cons other later => exact .cons ⟨_, _, related, other, rfl⟩ (ih later)

theorem map_eq_of_forall₂ {f : α → δ} {g : β → δ} (each : List.Forall₂ (fun x y => g y = f x) xs ys) :
    ys.map g = xs.map f := by
  induction each with
  | nil => rfl
  | cons same _ ih => rw [List.map_cons, List.map_cons, same, ih]

end Beside

end Groups

/-! ## Sums that are taken key by key -/

variable {α κ A : Type} [DecidableEq κ] [AddCommMonoid A] (key : α → κ) (amount : α → A)

@[simp] theorem totalOf_nil (k : κ) : totalOf key amount k [] = 0 := rfl

theorem totalOf_cons (k : κ) (x : α) (xs : List α) :
    totalOf key amount k (x :: xs) = (if key x = k then amount x else 0) + totalOf key amount k xs := by
  by_cases own : key x = k <;> simp [totalOf, own]

theorem totalOf_absent {k : κ} {xs : List α} (absent : k ∉ xs.map key) :
    totalOf key amount k xs = 0 := by
  have none : (xs.filter fun x => key x = k) = [] := by
    rw [List.filter_eq_nil_iff]
    intro x member same
    exact absent (List.mem_map.mpr ⟨x, member, of_decide_eq_true same⟩)
  rw [totalOf, none]
  rfl

/-- The total of a key that one element has. -/
theorem totalOf_unique {xs : List α} (distinct : (xs.map key).Nodup) {x : α} (member : x ∈ xs) :
    totalOf key amount (key x) xs = amount x := by
  induction xs with
  | nil => cases member
  | cons first rest ih =>
    obtain ⟨absent, others⟩ := List.nodup_cons.mp distinct
    rw [totalOf_cons]
    rcases List.mem_cons.mp member with rfl | later
    · rw [if_pos rfl, totalOf_absent key amount absent, add_zero]
    · have other : key first ≠ key x := fun same => absent (same ▸ List.mem_map_of_mem later)
      rw [if_neg other, zero_add]
      exact ih others later

/-- What `d.get(k, 0)` finds among the totals. -/
theorem getD_lookup_totals (xs : List α) (k : κ) :
    ((totals key amount xs).lookup k).getD 0 = totalOf key amount k xs := by
  rw [lookup_totals]
  split
  · rfl
  · rename_i absent
    exact (totalOf_absent key amount absent).symm

theorem mem_keys_totals {xs : List α} {k : κ} :
    k ∈ (totals key amount xs).map (·.1) ↔ k ∈ xs.map key := by
  constructor
  · intro member
    obtain ⟨⟨k', total⟩, inside, rfl⟩ := List.mem_map.mp member
    rw [mem_iff_lookup (totals_distinct key amount xs), lookup_totals] at inside
    split at inside
    · assumption
    · cases inside
  · intro occurs
    have found := lookup_totals key amount xs k
    rw [if_pos occurs] at found
    exact List.mem_map.mpr ⟨_, (mem_iff_lookup (totals_distinct key amount xs)).mpr found, rfl⟩

theorem sum_ite_eq {keys : List κ} (distinct : keys.Nodup) (own : κ) (a : A) :
    (keys.map fun k => if own = k then a else 0).sum = if own ∈ keys then a else 0 := by
  induction keys with
  | nil => simp
  | cons k rest ih =>
    obtain ⟨absent, others⟩ := List.nodup_cons.mp distinct
    rw [List.map_cons, List.sum_cons, ih others]
    by_cases same : own = k
    · subst same
      simp [absent]
    · simp [same]

/-- The totals of different keys sum to what the elements with some of the keys come to. -/
theorem sum_totalOf {keys : List κ} (distinct : keys.Nodup) (xs : List α) :
    (keys.map fun k => totalOf key amount k xs).sum = ((xs.filter fun x => key x ∈ keys).map amount).sum := by
  induction xs with
  | nil => simp
  | cons x rest ih =>
    simp only [totalOf_cons, List.sum_map_add, ih, sum_ite_eq distinct]
    by_cases inside : key x ∈ keys <;> simp [inside]

/-- A sum is what it is over the elements with a property, and over those without it. -/
theorem sum_filter_add (p : α → Bool) (xs : List α) :
    ((xs.filter p).map amount).sum + ((xs.filter fun x => !p x).map amount).sum = (xs.map amount).sum := by
  rw [← List.sum_append, ← List.map_append]
  exact ((List.filter_append_perm p xs).map amount).sum_eq

/-- Where every element that counts has one of the keys, their totals sum to all of it. -/
theorem sum_totalOf_support {keys : List κ} (distinct : keys.Nodup) {xs : List α}
    (covered : ∀ x ∈ xs, amount x ≠ 0 → key x ∈ keys) :
    (keys.map fun k => totalOf key amount k xs).sum = (xs.map amount).sum := by
  rw [sum_totalOf key amount distinct, ← sum_filter_add amount (fun x => key x ∈ keys) xs]
  have nothing : ((xs.filter fun x => !decide (key x ∈ keys)).map amount).sum = 0 := by
    apply List.sum_eq_zero
    intro a member
    obtain ⟨x, outside, rfl⟩ := List.mem_map.mp member
    by_contra counts
    have inside := covered x (List.mem_filter.mp outside).1 counts
    simp [inside] at outside
  rw [nothing, add_zero]

/-- Elements that are left out are as good as elements that count nothing. -/
theorem totalOf_filter (p : α → Bool) (k : κ) (xs : List α) :
    totalOf key amount k (xs.filter p) = totalOf key (fun x => if p x then amount x else 0) k xs := by
  induction xs with
  | nil => rfl
  | cons x rest ih =>
    rw [totalOf_cons, List.filter_cons]
    cases counts : p x
    · simpa using ih
    · simp [totalOf_cons, ih]

end MiniHedge.Library
