import MiniHedge.Library.Ladder
import MiniHedge.Library.Mapping
import Mathlib.Algebra.Order.Group.Int
import Mathlib.Order.Basic
import Mathlib.Order.Defs.Unbundled

/-! Dictionaries with different keys, and a walk over a snapshot of the keys of one that it changes.

The walk takes what it needs from one level after the other, deletes those that it
exhausts, and stops where nothing more is needed or where a key stops it. Nothing
depends on the order in which the dictionary holds its levels.
-/

set_option autoImplicit false

namespace MiniHedge.Library

/-- A dictionary in insertion order. -/
structure Dict (κ ν : Type) [DecidableEq κ] where
  items : List (κ × ν)
  distinct : (items.map (·.1)).Nodup

namespace Dict

variable {κ ν : Type} [DecidableEq κ]

def keys (d : Dict κ ν) : List κ := d.items.map (·.1)

def get? (d : Dict κ ν) (key : κ) : Option ν := d.items.lookup key

def set (d : Dict κ ν) (key : κ) (value : ν) : Dict κ ν where
  items := setItem key value d.items
  distinct := distinct_setItem key value d.distinct

def del (d : Dict κ ν) (key : κ) : Dict κ ν where
  items := d.items.filter fun item => item.1 ≠ key
  distinct := d.distinct.sublist (List.filter_sublist.map _)

theorem mem_items (d : Dict κ ν) {key : κ} {value : ν} :
    (key, value) ∈ d.items ↔ d.get? key = some value :=
  mem_iff_lookup d.distinct

theorem mem_keys (d : Dict κ ν) {key : κ} : key ∈ d.keys ↔ ∃ value, d.get? key = some value := by
  constructor
  · intro member
    obtain ⟨item, inside, rfl⟩ := List.mem_map.mp member
    exact ⟨item.2, d.mem_items.mp inside⟩
  · rintro ⟨value, found⟩
    exact List.mem_map.mpr ⟨(key, value), d.mem_items.mpr found, rfl⟩

@[simp] theorem get?_set (d : Dict κ ν) (key : κ) (value : ν) (k : κ) :
    (d.set key value).get? k = if k = key then some value else d.get? k :=
  lookup_setItem key value d.items k

@[simp] theorem get?_del (d : Dict κ ν) (key k : κ) :
    (d.del key).get? k = if k = key then none else d.get? k := by
  apply Option.ext
  intro value
  rw [← mem_items, del, List.mem_filter, mem_items]
  by_cases same : k = key
  · simp [same]
  · simp [same]

/-- What a key has, nothing where it is not held. -/
def depth (d : Dict κ ℤ) (key : κ) : ℤ := (d.get? key).getD 0

/-- Every level of the dictionary holds something. -/
def Positive (d : Dict κ ℤ) : Prop := ∀ item ∈ d.items, 0 < item.2

instance (d : Dict κ ℤ) : Decidable d.Positive := inferInstanceAs (Decidable (∀ item ∈ _, _))

theorem positive_iff {d : Dict κ ℤ} : d.Positive ↔ ∀ key value, d.get? key = some value → 0 < value :=
  ⟨fun positive _ _ found => positive _ (d.mem_items.mpr found),
    fun each item inside => each item.1 item.2 (d.mem_items.mp inside)⟩

theorem Positive.depth_nonneg {d : Dict κ ℤ} (positive : d.Positive) (key : κ) : 0 ≤ d.depth key := by
  unfold depth
  cases found : d.get? key with
  | none => exact le_rfl
  | some value => exact (positive_iff.mp positive key value found).le

theorem Positive.depth_pos {d : Dict κ ℤ} (positive : d.Positive) {key : κ} :
    0 < d.depth key ↔ key ∈ d.keys := by
  rw [mem_keys]
  unfold depth
  cases found : d.get? key with
  | none => simp
  | some value => simpa using positive_iff.mp positive key value found

theorem Positive.set {d : Dict κ ℤ} (positive : d.Positive) {key : κ} {value : ℤ} (some_held : 0 < value) :
    (d.set key value).Positive := by
  rw [positive_iff]
  intro k v found
  rw [get?_set] at found
  split at found
  · exact Option.some.inj found ▸ some_held
  · exact positive_iff.mp positive k v found

/-! ## One level -/

/-- `d[key] -= amount`, where a level that holds nothing any more is deleted. -/
def consume (d : Dict κ ℤ) (key : κ) (amount : ℤ) : Dict κ ℤ :=
  let d := d.set key (d.depth key - amount)
  if d.depth key ≤ 0 then d.del key else d

theorem get?_consume (d : Dict κ ℤ) (key : κ) (amount : ℤ) (k : κ) :
    (d.consume key amount).get? k =
      if k = key then if d.depth key ≤ amount then none else some (d.depth key - amount)
      else d.get? k := by
  have held : (d.set key (d.depth key - amount)).depth key = d.depth key - amount := by simp [depth]
  rw [consume, held]
  by_cases gone : d.depth key ≤ amount
  · rw [if_pos (by omega), get?_del, get?_set, if_pos gone]
    by_cases same : k = key <;> simp [same]
  · rw [if_neg (by omega), get?_set, if_neg gone]

theorem depth_consume {d : Dict κ ℤ} {key : κ} {amount : ℤ} (within : amount ≤ d.depth key) (k : κ) :
    (d.consume key amount).depth k = if k = key then d.depth key - amount else d.depth k := by
  rw [depth, get?_consume]
  by_cases same : k = key
  · rw [if_pos same, if_pos same]
    split
    · rw [Option.getD_none]
      omega
    · rfl
  · rw [if_neg same, if_neg same, depth]

theorem Positive.consume {d : Dict κ ℤ} (positive : d.Positive) (key : κ) (amount : ℤ) :
    (d.consume key amount).Positive := by
  rw [positive_iff]
  intro k value found
  rw [get?_consume] at found
  split at found
  · split at found
    · cases found
    · cases found
      omega
  · exact positive_iff.mp positive k value found

end Dict

/-! ## The walk -/

section Sweep

variable {P : Type} [DecidableEq P]

structure Swept (P : Type) [DecidableEq P] where
  taken : List (P × ℤ)
  left : Dict P ℤ
  remaining : ℤ

/-- Take from the levels with these keys in turn what remains to be taken. -/
def sweep (stops : P → Bool) : List P → Dict P ℤ → ℤ → Swept P
  | [], levels, remaining => ⟨[], levels, remaining⟩
  | price :: rest, levels, remaining =>
    if remaining ≤ 0 ∨ stops price then ⟨[], levels, remaining⟩
    else
      let filled := min remaining (levels.depth price)
      let later := sweep stops rest (levels.consume price filled) (remaining - filled)
      { later with taken := (price, filled) :: later.taken }

variable {stops : P → Bool}

theorem sweep_nil (levels : Dict P ℤ) (remaining : ℤ) : sweep stops [] levels remaining = ⟨[], levels, remaining⟩ := rfl

theorem sweep_cons (price : P) (rest : List P) (levels : Dict P ℤ) (remaining : ℤ) :
    sweep stops (price :: rest) levels remaining =
      if remaining ≤ 0 ∨ stops price then ⟨[], levels, remaining⟩
      else
        let filled := min remaining (levels.depth price)
        let later := sweep stops rest (levels.consume price filled) (remaining - filled)
        { later with taken := (price, filled) :: later.taken } := rfl

theorem sweep_stopped {prices : List P} {levels : Dict P ℤ} {remaining : ℤ} (done : remaining ≤ 0) :
    sweep stops prices levels remaining = ⟨[], levels, remaining⟩ := by
  cases prices with
  | nil => rfl
  | cons price rest => rw [sweep_cons, if_pos (.inl done)]

/-- Nothing is taken for a quantity that is not positive. -/
theorem sweep_toNat (stops : P → Bool) (prices : List P) (levels : Dict P ℤ) (quantity : ℤ) :
    (sweep stops prices levels quantity).taken = (sweep stops prices levels quantity.toNat).taken ∧
      (sweep stops prices levels quantity).left = (sweep stops prices levels quantity.toNat).left := by
  by_cases asked : quantity ≤ 0
  · rw [sweep_stopped asked, sweep_stopped (by omega)]
    exact ⟨rfl, rfl⟩
  · rw [Int.toNat_of_nonneg (by omega)]
    exact ⟨rfl, rfl⟩

/-- Levels with other keys are left alone. -/
theorem sweep_frame {prices : List P} {k : P} (other : k ∉ prices) (levels : Dict P ℤ)
    (remaining : ℤ) : (sweep stops prices levels remaining).left.get? k = levels.get? k := by
  induction prices generalizing levels remaining with
  | nil => rfl
  | cons price rest ih =>
    rw [List.mem_cons, not_or] at other
    rw [sweep_cons]
    split
    · rfl
    · rw [ih other.2, Dict.get?_consume, if_neg other.1]

theorem sweep_prices (prices : List P) (levels : Dict P ℤ) (remaining : ℤ) :
    ((sweep stops prices levels remaining).taken.map (·.1)).Sublist prices := by
  induction prices generalizing levels remaining with
  | nil => exact List.Sublist.refl _
  | cons price rest ih =>
    rw [sweep_cons]
    split
    · exact List.nil_sublist _
    · exact (ih _ _).cons_cons price

theorem sweep_within (prices : List P) (levels : Dict P ℤ) (remaining : ℤ) :
    ∀ level ∈ (sweep stops prices levels remaining).taken, ¬ stops level.1 := by
  induction prices generalizing levels remaining with
  | nil => simp [sweep_nil]
  | cons price rest ih =>
    rw [sweep_cons]
    split
    · simp
    · rename_i going
      exact List.forall_mem_cons.mpr ⟨(not_or.mp going).2, ih _ _⟩

theorem sweep_sum (prices : List P) (levels : Dict P ℤ) (remaining : ℤ) :
    ((sweep stops prices levels remaining).taken.map (·.2)).sum +
      (sweep stops prices levels remaining).remaining = remaining := by
  induction prices generalizing levels remaining with
  | nil => simp [sweep_nil]
  | cons price rest ih =>
    rw [sweep_cons]
    split
    · simp
    · have later := ih (levels.consume price (min remaining (levels.depth price)))
        (remaining - min remaining (levels.depth price))
      simp only [List.map_cons, List.sum_cons]
      omega

theorem sweep_remaining {prices : List P} {levels : Dict P ℤ} {remaining : ℤ}
    (nonneg : 0 ≤ remaining) : 0 ≤ (sweep stops prices levels remaining).remaining := by
  induction prices generalizing levels remaining with
  | nil => exact nonneg
  | cons price rest ih =>
    rw [sweep_cons]
    split
    · exact nonneg
    · apply ih
      omega

theorem sweep_left {prices : List P} {levels : Dict P ℤ} (positive : levels.Positive)
    (remaining : ℤ) : (sweep stops prices levels remaining).left.Positive := by
  induction prices generalizing levels remaining with
  | nil => exact positive
  | cons price rest ih =>
    rw [sweep_cons]
    split
    · exact positive
    · exact ih (positive.consume _ _) _

/-- What has been taken is missing, key by key. -/
theorem sweep_depth (prices : List P) (levels : Dict P ℤ) (remaining : ℤ) (k : P) :
    (sweep stops prices levels remaining).left.depth k =
      levels.depth k - totalOf (·.1) (·.2) k (sweep stops prices levels remaining).taken := by
  induction prices generalizing levels remaining with
  | nil => simp [sweep_nil, totalOf]
  | cons price rest ih =>
    rw [sweep_cons]
    split
    · simp [totalOf]
    · have filled : min remaining (levels.depth price) ≤ levels.depth price := by omega
      rw [ih, Dict.depth_consume filled]
      by_cases same : k = price
      · subst same
        simp [totalOf]
        omega
      · simp [totalOf, same, Ne.symm same]

section Held

variable {prices : List P} {levels : Dict P ℤ}

theorem held_consume {price : P} {rest : List P} (apart : price ∉ rest)
    (held : ∀ other ∈ price :: rest, other ∈ levels.keys) (amount : ℤ) :
    ∀ other ∈ rest, other ∈ (levels.consume price amount).keys := by
  intro other later
  have different : other ≠ price := fun same => apart (same ▸ later)
  rw [Dict.mem_keys, Dict.get?_consume, if_neg different, ← Dict.mem_keys]
  exact held other (List.mem_cons_of_mem _ later)

variable (remaining : ℤ)

/-- A level after which more is to be taken holds nothing any more. -/
theorem gone_of_more {price : P} {rest : List P} (apart : price ∉ rest)
    (more : 0 < remaining - min remaining (levels.depth price)) :
    price ∉ (sweep stops rest (levels.consume price (min remaining (levels.depth price)))
      (remaining - min remaining (levels.depth price))).left.keys := by
  have all : levels.depth price ≤ min remaining (levels.depth price) := by omega
  rw [Dict.mem_keys, sweep_frame apart, Dict.get?_consume, if_pos rfl, if_pos all]
  simp

variable (positive : levels.Positive) (distinct : prices.Nodup)
  (held : ∀ price ∈ prices, price ∈ levels.keys)

include positive distinct held

theorem sweep_positive :
    ∀ level ∈ (sweep stops prices levels remaining).taken, 0 < level.2 := by
  induction prices generalizing levels remaining with
  | nil => simp [sweep_nil]
  | cons price rest ih =>
    have first : 0 < levels.depth price := positive.depth_pos.mpr (held price List.mem_cons_self)
    rw [sweep_cons]
    split
    · simp
    · rename_i going
      refine List.forall_mem_cons.mpr ⟨by omega, ?_⟩
      obtain ⟨apart, others⟩ := List.nodup_cons.mp distinct
      exact ih _ (positive.consume _ _) others (held_consume apart held _)

/-- Where something remains to be taken, every level that does not stop the walk is exhausted. -/
theorem sweep_exhausts (ordered : prices.Pairwise fun p q => stops p → stops q) {price : P}
    (inside : price ∈ prices) (going : ¬ stops price)
    (unfilled : 0 < (sweep stops prices levels remaining).remaining) :
    price ∉ (sweep stops prices levels remaining).left.keys := by
  induction prices generalizing levels remaining with
  | nil => cases inside
  | cons first rest ih =>
    obtain ⟨after, tail⟩ := List.pairwise_cons.mp ordered
    obtain ⟨apart, others⟩ := List.nodup_cons.mp distinct
    have through : ¬ stops first := by
      rcases List.mem_cons.mp inside with rfl | later
      · exact going
      · exact fun stop => going (after price later stop)
    rw [sweep_cons] at unfilled ⊢
    by_cases done : remaining ≤ 0
    · rw [if_pos (.inl done)] at unfilled
      exact absurd unfilled (not_lt.mpr done)
    · rw [if_neg (not_or.mpr ⟨done, through⟩)] at unfilled ⊢
      dsimp only at unfilled ⊢
      rcases List.mem_cons.mp inside with rfl | later
      · apply gone_of_more remaining apart
        by_contra enough
        rw [sweep_stopped (not_lt.mp enough)] at unfilled
        exact enough unfilled
      · exact ih _ (positive.consume _ _) others (held_consume apart held _) tail
          later unfilled

/-- A level from which something is taken comes after exhausted levels alone. -/
theorem sweep_best {before : P → P → Prop} (asymmetric : ∀ p q, before p q → ¬ before q p)
    (ordered : prices.Pairwise before) {price : P} (inside : price ∈ prices) :
    ∀ level ∈ (sweep stops prices levels remaining).taken, before price level.1 →
      price ∉ (sweep stops prices levels remaining).left.keys := by
  induction prices generalizing levels remaining with
  | nil => cases inside
  | cons first rest ih =>
    obtain ⟨after, tail⟩ := List.pairwise_cons.mp ordered
    obtain ⟨apart, others⟩ := List.nodup_cons.mp distinct
    rw [sweep_cons]
    split
    · simp
    · intro level member better
      rcases List.mem_cons.mp member with rfl | later
      · -- nothing comes before the first level
        rcases List.mem_cons.mp inside with rfl | behind
        · exact absurd better (asymmetric _ _ better)
        · exact absurd better (asymmetric _ _ (after price behind))
      · rcases List.mem_cons.mp inside with rfl | behind
        · apply gone_of_more remaining apart
          by_contra enough
          rw [sweep_stopped (not_lt.mp enough)] at later
          cases later
        · exact ih _ (positive.consume _ _) others (held_consume apart held _) tail
            behind level later better

end Held

end Sweep

/-! ## The same walk on a ladder -/

section Levels

variable {P : Type} [DecidableEq P]

/-- The dictionary holds these levels. -/
def Dict.Holds (d : Dict P ℤ) (levels : List (P × ℕ)) : Prop :=
  ∀ level ∈ levels, d.get? level.1 = some (level.2 : ℤ)

theorem Dict.Holds.consume {d : Dict P ℤ} {levels : List (P × ℕ)} (holds : d.Holds levels) {key : P}
    (apart : key ∉ levels.map (·.1)) (amount : ℤ) : (d.consume key amount).Holds levels := by
  intro level member
  have other : level.1 ≠ key := fun same => apart (same ▸ List.mem_map_of_mem member)
  rw [Dict.get?_consume, if_neg other]
  exact holds level member

/-- What is taken and left of levels that a dictionary holds is what it is in the dictionary. -/
theorem sweep_walk (stops : P → Bool) {levels : List (P × ℕ)} (distinct : (levels.map (·.1)).Nodup) {d : Dict P ℤ}
    (holds : d.Holds levels) (n : ℕ) :
    (sweep stops (levels.map (·.1)) d n).taken =
        (walk stops n levels).taken.map (fun level => (level.1, (level.2 : ℤ))) ∧
      ∀ k ∈ levels.map (·.1), (sweep stops (levels.map (·.1)) d n).left.get? k =
        ((walk stops n levels).left.lookup k).map fun left : ℕ => (left : ℤ) := by
  induction levels generalizing d n with
  | nil => exact ⟨rfl, nofun⟩
  | cons level rest ih =>
    obtain ⟨price, available⟩ := level
    obtain ⟨apart, others⟩ := List.nodup_cons.mp distinct
    have depth : d.depth price = available := by
      rw [Dict.depth, holds (price, available) List.mem_cons_self]
      rfl
    rw [List.map_cons, sweep, walk]
    by_cases done : n = 0 ∨ stops price
    · have stopped : (n : ℤ) ≤ 0 ∨ stops price := done.imp_left fun zero => by omega
      rw [if_pos done, if_pos stopped]
      refine ⟨rfl, fun k inside => ?_⟩
      have held : k ∈ ((price, available) :: rest).map (·.1) := inside
      obtain ⟨level, member, rfl⟩ := List.mem_map.mp held
      rw [holds level member, (mem_iff_lookup distinct).mp member]
      rfl
    · have going : ¬ ((n : ℤ) ≤ 0 ∨ stops price) := fun stopped =>
        done (stopped.imp_left fun zero => by omega)
      rw [if_neg done, if_neg going]
      dsimp only
      have filled : min (n : ℤ) available = (min n available : ℕ) := by omega
      have remaining : (n : ℤ) - (min n available : ℕ) = (n - min n available : ℕ) := by omega
      rw [depth, filled, remaining]
      have tail : (d.consume price (min n available : ℕ)).Holds rest :=
        Dict.Holds.consume (fun level member => holds level (List.mem_cons_of_mem _ member)) apart _
      obtain ⟨taken, left⟩ := ih others tail (n - min n available)
      refine ⟨by rw [taken]; rfl, fun k inside => ?_⟩
      rcases List.mem_cons.mp inside with rfl | later
      · -- the level itself, which the rest of the walk does not reach
        have gone : (walk stops (n - min n available) rest).left.lookup k = none := by
          rw [List.lookup_eq_none_iff]
          intro level member
          have reached : level.1 ∈ rest.map (·.1) :=
            (keys_left _ _).subset (List.mem_map_of_mem member)
          simpa using fun same : k = level.1 => apart (same ▸ reached)
        rw [sweep_frame apart, Dict.get?_consume, if_pos rfl, depth]
        by_cases all : available - min n available = 0
        · rw [if_pos all, if_pos (by omega), gone]
          rfl
        · rw [if_neg all, if_neg (by omega), lookup_cons_ite, if_pos rfl, Option.map_some]
          congr 1
          omega
      · have other : k ≠ price := fun same => apart (same ▸ later)
        rw [left k later]
        split
        · rfl
        · rw [lookup_cons_ite, if_neg other]

end Levels

/-- What is offered once there is more at a price. -/
theorem lookup_insertLevel {P : Type} [LinearOrder P] (price : P) (quantity : ℕ)
    {levels : List (P × ℕ)} (sorted : levels.Pairwise fun a b => a.1 < b.1) (k : P) :
    (Ladder.insertLevel price quantity levels).lookup k =
      if k = price then some ((levels.lookup price).getD 0 + quantity) else levels.lookup k := by
  induction levels with
  | nil => simp [Ladder.insertLevel, lookup_cons_ite]
  | cons level rest ih =>
    obtain ⟨first, available⟩ := level
    obtain ⟨before, tail⟩ := List.pairwise_cons.mp sorted
    rw [Ladder.insertLevel]
    split
    · rename_i less
      -- a price before the first level is at none of them
      have absent : ((first, available) :: rest).lookup price = none := by
        rw [List.lookup_eq_none_iff]
        intro level member
        rcases List.mem_cons.mp member with rfl | later
        · simpa using less.ne
        · simpa using (less.trans (before level later)).ne
      rw [absent, lookup_cons_ite, Option.getD_none, zero_add]
    · split
      · rename_i same
        subst same
        simp only [lookup_cons_ite, if_true, Option.getD_some]
        split
        · rfl
        · rfl
      · rename_i other
        simp only [lookup_cons_ite, ih tail, if_neg other]
        by_cases own : k = first
        · subst own
          rw [if_pos rfl, if_pos rfl, if_neg (Ne.symm other)]
        · rw [if_neg own, if_neg own]

end MiniHedge.Library
