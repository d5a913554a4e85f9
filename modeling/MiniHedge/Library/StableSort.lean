import Mathlib.Algebra.Order.BigOperators.Group.List
import Mathlib.Data.List.Sort
import Mathlib.Order.Basic

/-! Stable sorting by a key.

`sortOn` keeps elements with equal keys in their previous order, and that
together with the key order determines the result: `sortOn_eq` names any list
that is a rearrangement with both properties.
-/

set_option autoImplicit false

namespace MiniHedge.Library

variable {α β κ : Type} [LinearOrder κ] (key : α → κ)

def sortOn (l : List α) : List α :=
  l.insertionSort fun a b => key a ≤ key b

/-- Place an element after every leading element whose key is not greater. -/
def insertAfter (a : α) : List α → List α
  | [] => [a]
  | b :: rest => if key b ≤ key a then b :: insertAfter a rest else a :: b :: rest

theorem sortOn_perm (l : List α) : (sortOn key l).Perm l :=
  List.perm_insertionSort _ l

@[simp] theorem mem_sortOn {l : List α} {a : α} : a ∈ sortOn key l ↔ a ∈ l :=
  (sortOn_perm key l).mem_iff

theorem sortOn_map (other : β → κ) (f : α → β) (same : ∀ a, other (f a) = key a) (l : List α) :
    sortOn other (l.map f) = (sortOn key l).map f :=
  (List.map_insertionSort _ _ f l fun a _ b _ => by simp only [same]).symm

/-- Sorting keeps whatever relation held along the list among equal keys. -/
theorem sortOn_pairwise {r : α → α → Prop} {l : List α} (ordered : l.Pairwise r) :
    (sortOn key l).Pairwise fun a b => key a < key b ∨ key a = key b ∧ r a b := by
  induction l with
  | nil => exact List.Pairwise.nil
  | cons a l ih =>
    obtain ⟨first, rest⟩ := List.pairwise_cons.mp ordered
    have tail := ih rest
    have before : ∀ b ∈ sortOn key l, r a b := fun b member => first b ((mem_sortOn key).mp member)
    change (List.orderedInsert (fun a b => key a ≤ key b) a (sortOn key l)).Pairwise _
    generalize sortOn key l = sorted at tail before
    induction sorted with
    | nil => exact List.pairwise_singleton _ _
    | cons b sorted ihs =>
      obtain ⟨smaller, sortedTail⟩ := List.pairwise_cons.mp tail
      by_cases le : key a ≤ key b
      · rw [List.orderedInsert_cons, if_pos le]
        refine List.pairwise_cons.mpr ⟨?_, tail⟩
        intro c member
        have bound : key a ≤ key c := by
          rcases List.mem_cons.mp member with rfl | later
          · exact le
          · rcases smaller c later with lt | ⟨same, _⟩
            · exact le.trans lt.le
            · exact le.trans same.le
        rcases bound.lt_or_eq with lt | same
        · exact .inl lt
        · exact .inr ⟨same, before c member⟩
      · rw [List.orderedInsert_cons, if_neg le]
        refine List.pairwise_cons.mpr ⟨?_, ihs sortedTail fun c member =>
          before c (List.mem_cons_of_mem b member)⟩
        intro c member
        rcases (List.mem_orderedInsert _).mp member with rfl | later
        · exact .inl (not_le.mp le)
        · exact smaller c later

/-- A rearrangement ordered by key, and by the list's own strict order among
equal keys, is the sorted list. -/
theorem sortOn_eq {r : α → α → Prop} (asymmetric : ∀ a b, r a b → ¬ r b a) {l sorted : List α}
    (ordered : l.Pairwise r) (rearranged : l.Perm sorted)
    (byKey : sorted.Pairwise fun a b => key a < key b ∨ key a = key b ∧ r a b) :
    sortOn key l = sorted := by
  refine List.Perm.eq_of_pairwise ?_ (sortOn_pairwise key ordered) byKey
    ((sortOn_perm key l).trans rearranged)
  intro a b _ _ left right
  rcases left with lt | ⟨same, ab⟩
  · rcases right with gt | ⟨same, _⟩
    · exact absurd gt lt.asymm
    · exact absurd same.symm lt.ne
  · rcases right with gt | ⟨_, ba⟩
    · exact absurd same gt.ne'
    · exact absurd ba (asymmetric a b ab)

theorem orderedInsert_insertAfter (a b : α) (l : List α) :
    List.orderedInsert (fun x y => key x ≤ key y) b (insertAfter key a l) =
      insertAfter key a (List.orderedInsert (fun x y => key x ≤ key y) b l) := by
  induction l with
  | nil => by_cases le : key b ≤ key a <;> simp [insertAfter, le]
  | cons c l ih =>
    by_cases ca : key c ≤ key a
    · by_cases bc : key b ≤ key c
      · simp [insertAfter, ca, bc, bc.trans ca]
      · simp [insertAfter, ca, bc, ih]
    · by_cases bc : key b ≤ key c
      · by_cases ba : key b ≤ key a <;> simp [insertAfter, ca, bc, ba]
      · have ba : ¬ key b ≤ key a := fun ba => bc (ba.trans (not_le.mp ca).le)
        simp [insertAfter, ca, bc, ba]

theorem sortOn_append_singleton (l : List α) (a : α) :
    sortOn key (l ++ [a]) = insertAfter key a (sortOn key l) := by
  induction l with
  | nil => rfl
  | cons b l ih =>
    change List.orderedInsert _ b (sortOn key (l ++ [a])) =
      insertAfter key a (List.orderedInsert _ b (sortOn key l))
    rw [ih, orderedInsert_insertAfter]

theorem insertAfter_map (other : β → κ) (f : α → β) (same : ∀ a, other (f a) = key a)
    (a : α) (l : List α) :
    insertAfter other (f a) (l.map f) = (insertAfter key a l).map f := by
  induction l with
  | nil => rfl
  | cons b l ih =>
    simp only [List.map_cons, insertAfter, same]
    split
    · rw [ih, List.map_cons]
    · rfl

theorem insertAfter_perm (a : α) (l : List α) : (insertAfter key a l).Perm (a :: l) := by
  induction l with
  | nil => exact List.Perm.refl _
  | cons b l ih =>
    simp only [insertAfter]
    split
    · exact (ih.cons b).trans (List.Perm.swap a b l)
    · exact List.Perm.refl _

theorem sortOn_sorted (l : List α) : (sortOn key l).Pairwise fun a b => key a ≤ key b :=
  (sortOn_pairwise key (List.pairwise_of_forall fun _ _ => trivial)).imp fun {_ _} order =>
    order.elim le_of_lt fun same => same.1.le

/-- What is not above a bound comes first in a sorted list. -/
theorem filter_append_of_sorted {l : List α} (sorted : l.Pairwise fun x y => key x ≤ key y) (bound : κ) :
    l.filter (key · ≤ bound) ++ l.filter (bound < key ·) = l := by
  induction l with
  | nil => rfl
  | cons a rest ih =>
    obtain ⟨first, later⟩ := List.pairwise_cons.mp sorted
    by_cases below : key a ≤ bound
    · rw [List.filter_cons_of_pos (by simpa using below), List.filter_cons_of_neg (by simpa using below),
        List.cons_append, ih later]
    · have above := not_le.mp below
      have none_below : rest.filter (key · ≤ bound) = [] := by
        rw [List.filter_eq_nil_iff]
        intro b member
        simpa using above.trans_le (first b member)
      have all_above : rest.filter (bound < key ·) = rest := by
        rw [List.filter_eq_self]
        intro b member
        exact decide_eq_true (above.trans_le (first b member))
      rw [List.filter_cons_of_neg (by simpa using above), List.filter_cons_of_pos (by simpa using above), none_below,
        all_above, List.nil_append]

/-- Two elements that look alike to `f` take the same place in a sorted list
exactly when they compare alike with each of its elements. -/
theorem insertAfter_map_eq_iff {f : α → β} {a b : α} {l : List α}
    (sorted : l.Pairwise fun x y => key x ≤ key y) (alike : f a = f b) (absent : f a ∉ l.map f) :
    (insertAfter key a l).map f = (insertAfter key b l).map f ↔
      ∀ c ∈ l, key c ≤ key a ↔ key c ≤ key b := by
  induction l with
  | nil => simp [insertAfter, alike]
  | cons c l ih =>
    obtain ⟨first, rest⟩ := List.pairwise_cons.mp sorted
    rw [List.map_cons, List.mem_cons, not_or] at absent
    rw [List.forall_mem_cons]
    by_cases ca : key c ≤ key a
    · by_cases cb : key c ≤ key b
      · simp only [insertAfter, ca, cb, if_true, List.map_cons, List.cons.injEq, true_and]
        exact ih rest absent.2
      · simp only [insertAfter, ca, cb, if_true, if_false, List.map_cons, List.cons.injEq]
        refine iff_of_false (fun same => absent.1 ?_) fun both => both.1.mp trivial
        rw [alike, same.1]
    · by_cases cb : key c ≤ key b
      · simp only [insertAfter, ca, cb, if_true, if_false, List.map_cons, List.cons.injEq]
        exact iff_of_false (fun same => absent.1 same.1) fun both => both.1.mpr trivial
      · simp only [insertAfter, ca, cb, if_false, List.map_cons, alike, true_iff]
        refine ⟨trivial, fun d member => ?_⟩
        have later := first d member
        exact iff_of_false (fun le => ca (later.trans le)) fun le => cb (later.trans le)

/-- Entries that are ordered by key, and by place among equal keys, come back
when the list they take in order of place is filtered and sorted by key. -/
theorem sortOn_filter_byPlace {entries : List (α × Nat)}
    (ordered : entries.Pairwise fun a b => key a.1 < key b.1 ∨ key a.1 = key b.1 ∧ a.2 < b.2)
    (places : (entries.map Prod.snd).Nodup) (p : α → Bool) :
    sortOn key (((sortOn Prod.snd entries).map Prod.fst).filter p) =
      (entries.map Prod.fst).filter p := by
  have distinct : entries.Pairwise fun a b => a.2 ≠ b.2 := List.pairwise_map.mp places
  have byPlace : (sortOn Prod.snd entries).Pairwise fun a b => a.2 < b.2 :=
    (sortOn_pairwise Prod.snd distinct).imp fun {a b} order =>
      order.elim id fun same => absurd same.1 same.2
  have rearranged : ((sortOn Prod.snd entries).filter (p ∘ Prod.fst)).Perm
      (entries.filter (p ∘ Prod.fst)) := (sortOn_perm Prod.snd entries).filter _
  have sorted : sortOn (fun entry : α × Nat => key entry.1)
      ((sortOn Prod.snd entries).filter (p ∘ Prod.fst)) = entries.filter (p ∘ Prod.fst) :=
    sortOn_eq _ (fun a b before => before.asymm) (byPlace.filter _) rearranged (ordered.filter _)
  rw [List.filter_map, List.filter_map, ← sorted]
  exact sortOn_map _ key Prod.fst (fun _ => rfl) _

/-! ## Places in a sorted list -/

section Places

variable {A : Type} [LinearOrder A] {l : List A} (sorted : l.Pairwise (· ≤ ·))
include sorted

/-- The elements below the one in a place stand before it. -/
theorem countP_lt_le {i : Nat} (inside : i < l.length) : l.countP (· < l[i]) ≤ i := by
  have later : (l.drop i).countP (· < l[i]) = 0 := by
    rw [List.countP_eq_zero]
    intro a member
    obtain ⟨j, place, rfl⟩ := List.mem_iff_getElem.mp member
    rw [List.getElem_drop, decide_eq_true_iff, not_lt]
    rcases Nat.eq_zero_or_pos j with rfl | after
    · exact le_rfl
    · exact List.pairwise_iff_getElem.mp sorted i (i + j) inside _ (by omega)
  calc l.countP (· < l[i]) = ((l.take i) ++ (l.drop i)).countP (· < l[i]) := by rw [List.take_append_drop]
    _ = (l.take i).countP (· < l[i]) := by rw [List.countP_append, later, Nat.add_zero]
    _ ≤ i := List.countP_le_length.trans (List.length_take_le i l)

/-- The elements up to a place are not above the one in it. -/
theorem lt_countP_le {i : Nat} (inside : i < l.length) : i < l.countP (· ≤ l[i]) := by
  have former : (l.take (i + 1)).countP (· ≤ l[i]) = (l.take (i + 1)).length := by
    rw [List.countP_eq_length]
    intro a member
    obtain ⟨j, place, rfl⟩ := List.mem_iff_getElem.mp member
    rw [List.length_take] at place
    rw [List.getElem_take, decide_eq_true_iff]
    rcases Nat.lt_or_eq_of_le (show j ≤ i by omega) with before | rfl
    · exact List.pairwise_iff_getElem.mp sorted j i _ inside before
    · exact le_rfl
  have taken : (l.take (i + 1)).length = i + 1 := List.length_take_of_le inside
  have part : (l.take (i + 1)).countP (· ≤ l[i]) ≤ l.countP (· ≤ l[i]) := (List.take_sublist _ _).countP_le
  omega

/-- The first elements of a sorted list sum to no more than as many of a later one. -/
theorem sum_take_le [AddCommMonoid A] [IsOrderedAddMonoid A] {i n : Nat} (inside : i < l.length)
    (early : min n l.length ≤ i + 1) :
    (l.take n).sum ≤ (l.take n).length • l[i] := by
  apply List.sum_le_card_nsmul
  intro a member
  obtain ⟨j, place, rfl⟩ := List.mem_iff_getElem.mp member
  rw [List.length_take] at place
  rw [List.getElem_take]
  rcases Nat.lt_or_eq_of_le (show j ≤ i by omega) with before | rfl
  · exact List.pairwise_iff_getElem.mp sorted j i _ inside before
  · exact le_rfl

end Places

end MiniHedge.Library
