import Mathlib.Algebra.BigOperators.Group.List.Basic
import Mathlib.Tactic.Abel
import Mathlib.Data.List.Nodup

/-! Rows with a unique key: changing the row with a key changes no other. -/

set_option autoImplicit false

namespace MiniHedge.Library

section Changes

variable {α κ A : Type} [DecidableEq κ] [AddCommGroup A] (key : α → κ) (change : α → α)

def changeRow (k : κ) (rows : List α) : List α :=
  rows.map fun row => if key row = k then change row else row

variable {key change}

theorem changeRow_absent {k : κ} {rows : List α} (absent : ∀ row ∈ rows, key row ≠ k) :
    changeRow key change k rows = rows := by
  unfold changeRow
  conv_rhs => rw [← List.map_id rows]
  exact List.map_congr_left fun row member => if_neg (absent row member)

/-- An amount over all rows moves by what it moves in the changed row. -/
theorem sum_changeRow (amount : α → A) {rows : List α} {row : α}
    (unique : (rows.map key).Nodup) (member : row ∈ rows) :
    ((changeRow key change (key row) rows).map amount).sum =
      (rows.map amount).sum + (amount (change row) - amount row) := by
  induction rows with
  | nil => cases member
  | cons first rest ih =>
    rw [List.map_cons, List.nodup_cons] at unique
    rcases List.mem_cons.mp member with rfl | inside
    · have absent : ∀ other ∈ rest, key other ≠ key row := fun other held same =>
        unique.1 (same ▸ List.mem_map_of_mem held)
      have kept : changeRow key change (key row) rest = rest := changeRow_absent absent
      simp only [changeRow, List.map_cons, if_true, List.sum_cons] at kept ⊢
      rw [kept]
      abel
    · have other : key first ≠ key row := fun same => unique.1 (same ▸ List.mem_map_of_mem inside)
      have moved := ih unique.2 inside
      simp only [changeRow, List.map_cons, if_neg other, List.sum_cons] at moved ⊢
      rw [moved]
      abel

end Changes

/-! ## Tables that only grow

The key of a row is its number.
-/

structure Numbered {α : Type} (key : α → Nat) where
  rows : List α
  numbered : rows.map key = List.range rows.length
  deriving DecidableEq

namespace Numbered

variable {α : Type} {key : α → Nat} (t : Numbered key)

def empty : Numbered key := ⟨[], rfl⟩

def append (row : α) (next : key row = t.rows.length) : Numbered key where
  rows := t.rows ++ [row]
  numbered := by simp [List.range_succ, t.numbered, next]

def change (f : α → α) (kept : ∀ row, key (f row) = key row) (k : Nat) : Numbered key where
  rows := changeRow key f k t.rows
  numbered := by
    rw [changeRow, List.length_map, ← t.numbered, List.map_map]
    refine List.map_congr_left fun row _ => ?_
    rw [Function.comp_apply]
    split
    · exact kept row
    · rfl

variable {t}

theorem distinct : (t.rows.map key).Nodup := by
  rw [t.numbered]
  exact List.nodup_range

theorem key_lt {row : α} (member : row ∈ t.rows) : key row < t.rows.length := by
  rw [← List.mem_range, ← t.numbered]
  exact List.mem_map_of_mem member

/-- Rows with one key are one row. -/
theorem unique {first second : α} (left : first ∈ t.rows) (right : second ∈ t.rows)
    (same : key first = key second) : first = second :=
  List.inj_on_of_nodup_map distinct left right same

theorem mem_change (f : α → α) (kept : ∀ row, key (f row) = key row) {k : Nat} {row : α} :
    row ∈ (t.change f kept k).rows ↔
      ∃ old ∈ t.rows, row = if key old = k then f old else old := by
  simp [change, changeRow, eq_comm]

end Numbered

end MiniHedge.Library
