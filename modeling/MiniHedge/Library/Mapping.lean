import Mathlib.Algebra.BigOperators.Group.List.Basic
import Mathlib.Algebra.Order.Ring.Rat
import Mathlib.Data.List.Perm.Basic
import Mathlib.Tactic.Abel
import Mathlib.Data.List.Induction
import Mathlib.Data.List.Nodup

/-! Dictionaries in insertion order, totals by key, and the largest of some amounts.

A dictionary is a list of keys and values. The totals of a list by a key are
added up in one as the list is read; what it holds in the end is, for each key
that occurs, the sum over the elements with the key.
-/

set_option autoImplicit false

namespace MiniHedge.Library

section Items

variable {κ ν : Type} [DecidableEq κ]

/-- `d[key] = value`, for a dictionary in insertion order. -/
def setItem (key : κ) (value : ν) : List (κ × ν) → List (κ × ν)
  | [] => [(key, value)]
  | (k, v) :: rest => if k = key then (k, value) :: rest else (k, v) :: setItem key value rest

theorem setItem_cons (key : κ) (value : ν) (item : κ × ν) (rest : List (κ × ν)) :
    setItem key value (item :: rest) =
      if item.1 = key then (item.1, value) :: rest else item :: setItem key value rest := rfl

theorem lookup_cons_ite (k key : κ) (value : ν) (rest : List (κ × ν)) :
    ((key, value) :: rest).lookup k = if k = key then some value else rest.lookup k := by
  rw [List.lookup_cons]
  by_cases same : k = key
  · simp [same]
  · rw [beq_eq_false_iff_ne.mpr same, if_neg same]

theorem mem_iff_lookup {d : List (κ × ν)} (distinct : (d.map (·.1)).Nodup) {k : κ} {v : ν} :
    (k, v) ∈ d ↔ d.lookup k = some v := by
  induction d with
  | nil => simp
  | cons first rest ih =>
    obtain ⟨key, value⟩ := first
    rw [List.map_cons, List.nodup_cons] at distinct
    rw [lookup_cons_ite, List.mem_cons, Prod.mk.injEq]
    by_cases own : k = key
    · subst own
      have gone : (k, v) ∉ rest := fun inside =>
        distinct.1 (List.mem_map.mpr ⟨(k, v), inside, rfl⟩)
      simp [gone, eq_comm]
    · simp [own, ih distinct.2]

theorem setItem_absent {key : κ} (value : ν) {d : List (κ × ν)}
    (absent : key ∉ d.map (·.1)) : setItem key value d = d ++ [(key, value)] := by
  induction d with
  | nil => rfl
  | cons first rest ih =>
    simp only [List.map_cons, List.mem_cons, not_or] at absent
    rw [setItem_cons, if_neg (Ne.symm absent.1), ih absent.2]
    rfl

theorem keys_setItem {key : κ} (value : ν) {d : List (κ × ν)} (held : key ∈ d.map (·.1)) :
    (setItem key value d).map (·.1) = d.map (·.1) := by
  induction d with
  | nil => cases held
  | cons first rest ih =>
    by_cases own : first.1 = key
    · simp [setItem_cons, own]
    · rw [setItem_cons, if_neg own, List.map_cons, List.map_cons, ih]
      exact (List.mem_cons.mp held).resolve_left (Ne.symm own)

theorem distinct_setItem (key : κ) (value : ν) {d : List (κ × ν)} (distinct : (d.map (·.1)).Nodup) :
    ((setItem key value d).map (·.1)).Nodup := by
  by_cases held : key ∈ d.map (·.1)
  · rwa [keys_setItem value held]
  · rw [setItem_absent value held, List.map_append, List.map_singleton, List.nodup_append]
    refine ⟨distinct, by simp, ?_⟩
    intro k inside other only same
    rw [List.mem_singleton] at only
    apply held
    rw [same, only] at inside
    exact inside

theorem lookup_setItem (key : κ) (value : ν) (d : List (κ × ν)) (k : κ) :
    (setItem key value d).lookup k = if k = key then some value else d.lookup k := by
  induction d with
  | nil => exact lookup_cons_ite k key value []
  | cons first rest ih =>
    obtain ⟨other, old⟩ := first
    by_cases own : other = key
    · subst own
      rw [setItem_cons, if_pos rfl, lookup_cons_ite, lookup_cons_ite]
      split <;> rfl
    · rw [setItem_cons, if_neg own, lookup_cons_ite, lookup_cons_ite, ih]
      by_cases found : k = other
      · simp [found, own]
      · simp [found]

/-- `del d[key]`, and nothing where the key is not held. -/
def delItem (key : κ) (d : List (κ × ν)) : List (κ × ν) := d.filter fun item => item.1 ≠ key

theorem distinct_delItem (key : κ) {d : List (κ × ν)} (distinct : (d.map (·.1)).Nodup) :
    ((delItem key d).map (·.1)).Nodup :=
  distinct.sublist (List.filter_sublist.map _)

theorem lookup_delItem (key : κ) (d : List (κ × ν)) (k : κ) :
    (delItem key d).lookup k = if k = key then none else d.lookup k := by
  unfold delItem
  induction d with
  | nil => simp
  | cons first rest ih =>
    obtain ⟨other, value⟩ := first
    rw [List.filter_cons]
    by_cases own : other = key
    · subst own
      rw [if_neg (by simp), ih, lookup_cons_ite]
      split <;> rfl
    · rw [if_pos (by simpa using own), lookup_cons_ite, lookup_cons_ite, ih]
      by_cases found : k = other
      · simp [found, own]
      · simp [found]

/-- Rows with different keys, stored one after the other. -/
theorem foldl_setItem {α : Type} (key : α → κ) (value : α → ν) {rows : List α}
    (distinct : (rows.map key).Nodup) :
    rows.foldl (fun d row => setItem (key row) (value row) d) [] =
      rows.map fun row => (key row, value row) := by
  suffices general : ∀ (done : List (κ × ν)), (done.map (·.1) ++ rows.map key).Nodup →
      rows.foldl (fun d row => setItem (key row) (value row) d) done =
        done ++ rows.map fun row => (key row, value row) by
    simpa using general [] (by simpa using distinct)
  clear distinct
  induction rows with
  | nil => simp
  | cons row rest ih =>
    intro done distinct
    have absent : key row ∉ done.map (·.1) := fun inside =>
      (List.nodup_append.mp distinct).2.2 _ inside _ (by simp) rfl
    rw [List.foldl_cons, setItem_absent _ absent, ih]
    · simp
    · simpa using distinct

end Items

section Fold

variable {α κ ν : Type} [DecidableEq κ] (key : α → κ) (step : Option ν → α → ν)

/-- `d[k] = step(d.get(k), x)` for each element. -/
def writeEach (d : List (κ × ν)) (xs : List α) : List (κ × ν) :=
  xs.foldl (fun d x => setItem (key x) (step (d.lookup (key x)) x) d) d

theorem writeEach_cons (d : List (κ × ν)) (x : α) (xs : List α) :
    writeEach key step d (x :: xs) = writeEach key step (setItem (key x) (step (d.lookup (key x)) x) d) xs := rfl

/-- What is held for a key is what the elements with the key have made of it. -/
theorem lookup_writeEach (d : List (κ × ν)) (xs : List α) (k : κ) :
    (writeEach key step d xs).lookup k =
      (xs.filter fun x => key x = k).foldl (fun held x => some (step held x)) (d.lookup k) := by
  induction xs generalizing d with
  | nil => rfl
  | cons x xs ih =>
    rw [writeEach_cons, ih, lookup_setItem]
    by_cases own : key x = k
    · subst own
      simp
    · simp [own, Ne.symm own]

/-- Where each element writes what it is alone, the last one with a key is what is held. -/
theorem lookup_write_last (value : α → ν) (xs : List α) (k : κ) :
    (writeEach key (fun _ x => value x) [] xs).lookup k = (xs.filter fun x => key x = k).getLast?.map value := by
  rw [lookup_writeEach, List.lookup_nil]
  generalize xs.filter (fun x => key x = k) = own
  induction own using List.reverseRecOn with
  | nil => rfl
  | append_singleton own x _ => simp

/-- From an empty dictionary, what is held for a key that occurs is what is made of the elements with the key. -/
theorem lookup_writeEach_nil (made : List α → ν) (first : ∀ x, step none x = made [x])
    (next : ∀ own x, step (some (made own)) x = made (own ++ [x])) (xs : List α) (k : κ) :
    (writeEach key step [] xs).lookup k =
      if k ∈ xs.map key then some (made (xs.filter fun x => key x = k)) else none := by
  have folded : ∀ own : List α, own.foldl (fun held x => some (step held x)) none =
      if own = [] then none else some (made own) := by
    intro own
    induction own using List.reverseRecOn with
    | nil => rfl
    | append_singleton own x ih =>
      rw [List.foldl_append, ih]
      by_cases alone : own = []
      · subst alone
        simp [first]
      · simp [alone, next]
  have occurs : (xs.filter fun x => key x = k) = [] ↔ k ∉ xs.map key := by
    simp [List.filter_eq_nil_iff]
  rw [lookup_writeEach, List.lookup_nil, folded]
  by_cases here : k ∈ xs.map key
  · rw [if_neg (by rw [occurs]; exact not_not.mpr here), if_pos here]
  · rw [if_pos (occurs.mpr here), if_neg here]

theorem distinct_writeEach {d : List (κ × ν)} (distinct : (d.map (·.1)).Nodup) (xs : List α) :
    ((writeEach key step d xs).map (·.1)).Nodup := by
  induction xs generalizing d with
  | nil => exact distinct
  | cons x xs ih => exact ih (distinct_setItem _ _ distinct)

end Fold

section Sums

variable {α κ ν A : Type} [DecidableEq κ] [AddCommGroup A]

theorem sum_map_filter (p : α → Bool) (f : α → A) (xs : List α) :
    ((xs.filter p).map f).sum = (xs.map fun x => if p x then f x else 0).sum := by
  induction xs with
  | nil => rfl
  | cons x xs ih => cases keeps : p x <;> simp [keeps, ih]

/-- Writing an item moves a sum over the dictionary by what its value moves. -/
theorem sum_setItem (f : κ → ν → A) (key : κ) (value : ν) (d : List (κ × ν)) :
    ((setItem key value d).map fun e => f e.1 e.2).sum =
      (d.map fun e => f e.1 e.2).sum + (f key value - ((d.lookup key).map (f key)).getD 0) := by
  induction d with
  | nil => simp [setItem]
  | cons first rest ih =>
    obtain ⟨k, v⟩ := first
    by_cases same : k = key
    · subst same
      simp [setItem_cons]
      abel
    · have other : key ≠ k := Ne.symm same
      simp only [setItem_cons, same, if_false, List.map_cons, List.sum_cons, ih, lookup_cons_ite, other]
      abel

end Sums

section Totals

variable {α κ A : Type} [DecidableEq κ] [AddCommMonoid A] (key : α → κ) (amount : α → A)

/-- `d[k] = d.get(k, 0) + a` for each element, from an empty dictionary. -/
def totals (xs : List α) : List (κ × A) :=
  xs.foldl (fun d x => setItem (key x) ((d.lookup (key x)).getD 0 + amount x) d) []

/-- The sum over the elements with the key. -/
def totalOf (k : κ) (xs : List α) : A := ((xs.filter fun x => key x = k).map amount).sum

theorem totalOf_perm {xs ys : List α} (perm : xs.Perm ys) (k : κ) :
    totalOf key amount k xs = totalOf key amount k ys :=
  ((perm.filter _).map amount).sum_eq

theorem lookup_totals (xs : List α) (k : κ) :
    (totals key amount xs).lookup k =
      if k ∈ xs.map key then some (totalOf key amount k xs) else none := by
  apply lookup_writeEach_nil key (fun held x => held.getD 0 + amount x) fun own => (own.map amount).sum
  · intro x
    simp
  · intro own x
    simp

theorem totals_distinct (xs : List α) : ((totals key amount xs).map (·.1)).Nodup :=
  distinct_writeEach key (fun held x => held.getD 0 + amount x) (by simp) xs

theorem mem_totals {xs : List α} {total : A} :
    total ∈ (totals key amount xs).map (·.2) ↔ ∃ x ∈ xs, total = totalOf key amount (key x) xs := by
  have held : ∀ k t, (k, t) ∈ totals key amount xs ↔
      k ∈ xs.map key ∧ t = totalOf key amount k xs := by
    intro k t
    rw [mem_iff_lookup (totals_distinct key amount xs), lookup_totals]
    split
    · rename_i occurs
      simp only [occurs, true_and, Option.some.injEq]
      exact eq_comm
    · rename_i missing
      simp [missing]
  constructor
  · intro member
    obtain ⟨⟨k, t⟩, inside, rfl⟩ := List.mem_map.mp member
    obtain ⟨occurs, rfl⟩ := (held k t).mp inside
    obtain ⟨x, here, rfl⟩ := List.mem_map.mp occurs
    exact ⟨x, here, rfl⟩
  · rintro ⟨x, here, rfl⟩
    exact List.mem_map.mpr ⟨(key x, _), (held _ _).mpr ⟨List.mem_map_of_mem here, rfl⟩, rfl⟩

end Totals

section Largest

variable {A : Type} [Zero A] [LinearOrder A]

/-- The loop that keeps the first of the largest amounts, from zero. -/
def largest (amounts : List A) : A := amounts.foldl (fun worst a => if worst < a then a else worst) 0

theorem largest_le_iff {amounts : List A} {limit : A} :
    largest amounts ≤ limit ↔ 0 ≤ limit ∧ ∀ a ∈ amounts, a ≤ limit := by
  suffices general : ∀ worst : A,
      amounts.foldl (fun worst a => if worst < a then a else worst) worst ≤ limit ↔
        worst ≤ limit ∧ ∀ a ∈ amounts, a ≤ limit from general 0
  induction amounts with
  | nil => simp
  | cons a rest ih =>
    intro worst
    rw [List.foldl_cons, ih]
    by_cases above : worst < a
    · rw [if_pos above]
      constructor
      · rintro ⟨here, later⟩
        exact ⟨(le_of_lt above).trans here, by simpa [here] using later⟩
      · rintro ⟨-, all⟩
        exact ⟨all a (by simp), fun b member => all b (by simp [member])⟩
    · rw [if_neg above]
      constructor
      · rintro ⟨here, later⟩
        exact ⟨here, by simpa [(not_lt.mp above).trans here] using later⟩
      · rintro ⟨here, all⟩
        exact ⟨here, fun b member => all b (by simp [member])⟩

theorem largest_nonneg (amounts : List A) : 0 ≤ largest amounts :=
  (largest_le_iff.mp le_rfl).1

theorem le_largest {amounts : List A} {a : A} (member : a ∈ amounts) : a ≤ largest amounts :=
  (largest_le_iff.mp le_rfl).2 a member

/-- The largest amount depends on which amounts there are alone. -/
theorem largest_congr {first second : List A} (same : ∀ a, a ∈ first ↔ a ∈ second) :
    largest first = largest second :=
  le_antisymm (largest_le_iff.mpr ⟨largest_nonneg _, fun a here => le_largest ((same a).mp here)⟩)
    (largest_le_iff.mpr ⟨largest_nonneg _, fun a here => le_largest ((same a).mpr here)⟩)

theorem largest_map {B : Type} [Zero B] [LinearOrder B] {f : A → B} (increasing : StrictMono f)
    (zero : f 0 = 0) (amounts : List A) : largest (amounts.map f) = f (largest amounts) := by
  suffices general : ∀ worst : A,
      (amounts.map f).foldl (fun worst a => if worst < a then a else worst) (f worst) =
        f (amounts.foldl (fun worst a => if worst < a then a else worst) worst) by
    rw [largest, ← zero, general]
    rfl
  induction amounts with
  | nil => exact fun worst => rfl
  | cons a rest ih =>
    intro worst
    simp only [List.map_cons, List.foldl_cons, increasing.lt_iff_lt]
    split <;> exact ih _

example : largest [3, 1, 4, 1, 5] = 5 ∧ largest [-1, -2] = (0 : ℤ) := by decide +kernel

end Largest

/-! ## Dictionaries whose keys are different, and sums over some of the keys -/

structure Dictionary (κ ν : Type) where
  items : List (κ × ν)
  distinct : (items.map (·.1)).Nodup
  deriving DecidableEq

namespace Dictionary

variable {κ ν : Type} [DecidableEq κ] (d : Dictionary κ ν)

def keys : List κ := d.items.map (·.1)

def values : List ν := d.items.map (·.2)

/-- `d.get(key, default)`. -/
def get (key : κ) (default : ν) : ν := (d.items.lookup key).getD default

variable {d}

theorem get_of_mem {key : κ} {value : ν} (default : ν) (member : (key, value) ∈ d.items) :
    d.get key default = value := by
  rw [get, (mem_iff_lookup d.distinct).mp member, Option.getD_some]

theorem get_absent {key : κ} (default : ν) (absent : key ∉ d.keys) : d.get key default = default := by
  cases found : d.items.lookup key with
  | none => rw [get, found, Option.getD_none]
  | some value =>
    have member := (mem_iff_lookup d.distinct).mpr found
    exact absurd (List.mem_map_of_mem member) absent

theorem map_get_keys (default : ν) : (d.keys.map fun key => d.get key default) = d.values := by
  rw [keys, values, List.map_map]
  apply List.map_congr_left
  intro item member
  exact get_of_mem default member

/-! ### Items that are set and deleted -/

def empty : Dictionary κ ν := ⟨[], List.nodup_nil⟩

def get? (d : Dictionary κ ν) (key : κ) : Option ν := d.items.lookup key

/-- `d[key] = value`. -/
def set (d : Dictionary κ ν) (key : κ) (value : ν) : Dictionary κ ν :=
  ⟨setItem key value d.items, distinct_setItem key value d.distinct⟩

/-- `del d[key]`. -/
def del (d : Dictionary κ ν) (key : κ) : Dictionary κ ν :=
  ⟨delItem key d.items, distinct_delItem key d.distinct⟩

theorem mem_items (d : Dictionary κ ν) {key : κ} {value : ν} :
    (key, value) ∈ d.items ↔ d.get? key = some value :=
  mem_iff_lookup d.distinct

theorem mem_keys (d : Dictionary κ ν) {key : κ} : key ∈ d.keys ↔ ∃ value, d.get? key = some value := by
  constructor
  · intro member
    obtain ⟨item, inside, rfl⟩ := List.mem_map.mp member
    exact ⟨item.2, d.mem_items.mp inside⟩
  · rintro ⟨value, found⟩
    exact List.mem_map.mpr ⟨(key, value), d.mem_items.mpr found, rfl⟩

/-- What is found for a key does not depend on the order of the items. -/
theorem get_perm {d d' : Dictionary κ ν} (perm : d.items.Perm d'.items) (key : κ) (default : ν) :
    d.get key default = d'.get key default := by
  have same : d.get? key = d'.get? key := by
    apply Option.ext
    intro value
    rw [← mem_items, ← mem_items, perm.mem_iff]
  exact congrArg (·.getD default) same

/-- The items are what is found, in some order. -/
theorem perm_of_get? {d d' : Dictionary κ ν} (same : ∀ key, d.get? key = d'.get? key) : d.items.Perm d'.items := by
  rw [List.perm_ext_iff_of_nodup d.distinct.of_map d'.distinct.of_map]
  rintro ⟨key, value⟩
  rw [mem_items, mem_items, same]

theorem get_mem_values (d : Dictionary κ ν) {key : κ} {default : ν} (found : d.get key default ≠ default) :
    d.get key default ∈ d.values := by
  by_cases inside : key ∈ d.keys
  · obtain ⟨value, held⟩ := d.mem_keys.mp inside
    have member := d.mem_items.mpr held
    rw [get_of_mem default member]
    exact List.mem_map_of_mem member
  · exact absurd (get_absent default inside) found

@[simp] theorem get_empty (key : κ) (default : ν) : (empty : Dictionary κ ν).get key default = default := rfl

@[simp] theorem get?_set (d : Dictionary κ ν) (key : κ) (value : ν) (k : κ) :
    (d.set key value).get? k = if k = key then some value else d.get? k :=
  lookup_setItem key value d.items k

@[simp] theorem get?_del (d : Dictionary κ ν) (key k : κ) :
    (d.del key).get? k = if k = key then none else d.get? k :=
  lookup_delItem key d.items k

@[simp] theorem get_set (d : Dictionary κ ν) (key : κ) (value : ν) (k : κ) (default : ν) :
    (d.set key value).get k default = if k = key then value else d.get k default := by
  rw [get, set, lookup_setItem]
  split <;> rfl

@[simp] theorem get_del (d : Dictionary κ ν) (key k : κ) (default : ν) :
    (d.del key).get k default = if k = key then default else d.get k default := by
  rw [get, del, lookup_delItem]
  split <;> rfl

end Dictionary

/-- Keys that count nothing may be left out of a sum. -/
theorem sum_subset {κ A : Type} [DecidableEq κ] [AddCommGroup A] {f : κ → A} {keys inner : List κ}
    (distinct : keys.Nodup) (distinct' : inner.Nodup) (inside : ∀ k ∈ inner, k ∈ keys)
    (nothing : ∀ k, k ∉ inner → f k = 0) : (keys.map f).sum = (inner.map f).sum := by
  have same : (keys.filter fun k => k ∈ inner).Perm inner := by
    rw [List.perm_ext_iff_of_nodup (distinct.filter _) distinct']
    intro k
    rw [List.mem_filter, decide_eq_true_iff]
    exact ⟨fun both => both.2, fun member => ⟨inside k member, member⟩⟩
  rw [← (same.map f).sum_eq, sum_map_filter]
  apply congrArg List.sum
  apply List.map_congr_left
  intro k _
  by_cases member : k ∈ inner
  · simp [member]
  · simp [member, nothing k member]

end MiniHedge.Library
