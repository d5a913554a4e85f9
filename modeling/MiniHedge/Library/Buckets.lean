import MiniHedge.Library.Groups
import MiniHedge.Library.Mapping
import MiniHedge.Library.StableSort

/-! The elements of a list in buckets by a key, and the buckets in the order of their keys. -/

set_option autoImplicit false

namespace MiniHedge.Library

/-! ## Buckets -/

section Buckets

variable {α κ : Type} [LinearOrder κ] (key : α → κ)

/-- `buckets[key(x)].append(x)` for each element, where no bucket is there before its first. -/
def buckets (xs : List α) : List (κ × List α) := writeEach key (fun held x => held.getD [] ++ [x]) [] xs

theorem lookup_buckets (xs : List α) (k : κ) :
    (buckets key xs).lookup k = if k ∈ xs.map key then some (xs.filter fun x => key x = k) else none :=
  lookup_writeEach_nil key (fun held x => held.getD [] ++ [x]) id (fun _ => rfl) (fun _ _ => rfl) xs k

theorem distinct_buckets (xs : List α) : ((buckets key xs).map (·.1)).Nodup :=
  distinct_writeEach key _ (by simp) xs

theorem mem_buckets {xs : List α} {k : κ} {own : List α} :
    (k, own) ∈ buckets key xs ↔ k ∈ xs.map key ∧ own = xs.filter fun x => key x = k := by
  rw [mem_iff_lookup (distinct_buckets key xs), lookup_buckets]
  split
  · rename_i occurs
    rw [Option.some.injEq]
    constructor
    · rintro rfl
      exact ⟨occurs, rfl⟩
    · intro held
      exact held.2.symm
  · rename_i absent
    simp [absent]

/-- The buckets do not depend on the order of elements with different keys, but for their own order. -/
theorem buckets_perm {xs ys : List α} (same : ∀ k, xs.filter (key · = k) = ys.filter (key · = k)) :
    (buckets key xs).Perm (buckets key ys) := by
  have occurs : ∀ {zs : List α} {k : κ}, k ∈ zs.map key ↔ zs.filter (key · = k) ≠ [] := by
    intro zs k
    rw [List.mem_map, ne_eq, List.filter_eq_nil_iff]
    simp
  rw [List.perm_ext_iff_of_nodup (distinct_buckets key xs).of_map (distinct_buckets key ys).of_map]
  rintro ⟨k, own⟩
  rw [mem_buckets, mem_buckets, occurs, occurs, same]

/-- The keys that occur, in order. -/
def sortedKeys (xs : List α) : List κ := sortOn id ((buckets key xs).map (·.1))

theorem mem_sortedKeys {xs : List α} {k : κ} : k ∈ sortedKeys key xs ↔ k ∈ xs.map key := by
  rw [sortedKeys, mem_sortOn]
  constructor
  · intro inside
    obtain ⟨⟨k', own⟩, held, rfl⟩ := List.mem_map.mp inside
    exact ((mem_buckets key).mp held).1
  · intro occurs
    exact List.mem_map.mpr ⟨(k, _), (mem_buckets key).mpr ⟨occurs, rfl⟩, rfl⟩

theorem nodup_sortedKeys (xs : List α) : (sortedKeys key xs).Nodup :=
  (sortOn_perm id _).nodup_iff.mpr (distinct_buckets key xs)

/-- `sorted(buckets.items())`: no two buckets have a key, so that their contents are never compared. -/
def sortedBuckets (xs : List α) : List (κ × List α) := sortOn (·.1) (buckets key xs)

theorem sortedBuckets_eq (xs : List α) :
    sortedBuckets key xs = (sortedKeys key xs).map fun k => (k, xs.filter fun x => key x = k) := by
  have held : ((buckets key xs).map (·.1)).map (fun k => (k, xs.filter fun x => key x = k)) = buckets key xs := by
    rw [List.map_map]
    apply (List.map_congr_left _).trans (List.map_id _)
    rintro ⟨k, own⟩ member
    simp [((mem_buckets key).mp member).2]
  calc sortedBuckets key xs
      = sortOn (·.1) (((buckets key xs).map (·.1)).map fun k => (k, xs.filter fun x => key x = k)) := by
        rw [held]
        rfl
    _ = _ := sortOn_map id (fun bucket : κ × List α => bucket.1) _ (fun _ => rfl) _

/-- Another order of the list gives the same keys. -/
theorem sortedKeys_perm {xs ys : List α} (perm : xs.Perm ys) : sortedKeys key xs = sortedKeys key ys := by
  have rearranged : ((buckets key xs).map (·.1)).Perm ((buckets key ys).map (·.1)) := by
    rw [List.perm_ext_iff_of_nodup (distinct_buckets key xs) (distinct_buckets key ys)]
    intro k
    have first : k ∈ sortedKeys key xs ↔ k ∈ xs.map key := mem_sortedKeys key
    have second : k ∈ sortedKeys key ys ↔ k ∈ ys.map key := mem_sortedKeys key
    rw [sortedKeys, mem_sortOn] at first second
    rw [first, second]
    exact (perm.map key).mem_iff
  apply List.Perm.eq_of_pairwise _ (sortOn_sorted id _) (sortOn_sorted id _)
  · exact ((sortOn_perm id _).trans rearranged).trans (sortOn_perm id _).symm
  · intro k k' _ _ le ge
    exact le_antisymm le ge

end Buckets

end MiniHedge.Library
