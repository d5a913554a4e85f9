import MiniHedge.Library.Mapping
import Mathlib.Data.List.Basic
import Mathlib.Order.Basic
import Mathlib.Tactic.Abel

/-! The row that a query answers which orders by a date and takes the first.

Rows of one date may come in any order: `tie` chooses among them.
-/

set_option autoImplicit false

namespace MiniHedge.Library

section Latest

variable {α K : Type} [LinearOrder K] (key : α → K) (rows : List α)

/-- The rows that no other row is later than. -/
def latestRows : List α := rows.filter fun r => rows.all fun other => key other ≤ key r

def latestRow (tie : Nat) : Option α := (latestRows key rows)[tie % (latestRows key rows).length]?

variable {key rows}

theorem mem_latestRows {r : α} :
    r ∈ latestRows key rows ↔ r ∈ rows ∧ ∀ other ∈ rows, key other ≤ key r := by
  simp [latestRows]

theorem mem_of_latestRow {tie : Nat} {r : α} (found : latestRow key rows tie = some r) :
    r ∈ latestRows key rows := List.mem_of_getElem? found

theorem latestRow_eq_none {tie : Nat} : latestRow key rows tie = none ↔ latestRows key rows = [] := by
  unfold latestRow
  rw [List.getElem?_eq_none_iff]
  constructor
  · intro beyond
    by_contra nonempty
    exact absurd (Nat.mod_lt tie (List.length_pos_iff.mpr nonempty)) (Nat.not_lt.mpr beyond)
  · intro empty
    simp [empty]

theorem exists_latest (key : α → K) {r : α} (member : r ∈ rows) : ∃ l, l ∈ latestRows key rows := by
  have nonempty : rows ≠ [] := List.ne_nil_of_mem member
  obtain ⟨l, inside, last⟩ : ∃ l ∈ rows, ∀ other ∈ rows, key other ≤ key l := by
    clear member
    induction rows with
    | nil => exact absurd rfl nonempty
    | cons next rest ih =>
      by_cases more : rest = []
      · exact ⟨next, List.mem_cons_self, by simp [more]⟩
      · obtain ⟨l, inside, last⟩ := ih more
        rcases le_total (key next) (key l) with below | above
        · refine ⟨l, List.mem_cons_of_mem next inside, fun other at_ => ?_⟩
          rcases List.mem_cons.mp at_ with rfl | later
          · exact below
          · exact last other later
        · refine ⟨next, List.mem_cons_self, fun other at_ => ?_⟩
          rcases List.mem_cons.mp at_ with rfl | later
          · exact le_refl _
          · exact le_trans (last other later) above
  exact ⟨l, mem_latestRows.mpr ⟨inside, last⟩⟩

theorem latestRow_eq_none_iff {tie : Nat} : latestRow key rows tie = none ↔ rows = [] := by
  rw [latestRow_eq_none]
  constructor
  · intro empty
    refine List.eq_nil_iff_forall_not_mem.mpr fun r member => ?_
    obtain ⟨l, inside⟩ := exists_latest key member
    rw [empty] at inside
    cases inside
  · rintro rfl
    rfl

/-- Of two rows of an ordered table, one comes before the other. -/
theorem pairwise_cases {R : α → α → Prop} (ordered : rows.Pairwise R) {a b : α} (left : a ∈ rows)
    (right : b ∈ rows) : a = b ∨ R a b ∨ R b a := by
  induction rows with
  | nil => cases left
  | cons r rest ih =>
    obtain ⟨before, ordered⟩ := List.pairwise_cons.mp ordered
    rcases List.mem_cons.mp left with rfl | inside
    · rcases List.mem_cons.mp right with rfl | later
      · exact .inl rfl
      · exact .inr (.inl (before b later))
    · rcases List.mem_cons.mp right with rfl | later
      · exact .inr (.inr (before a inside))
      · exact ih ordered inside later

end Latest

/-! ## Tables whose rows carry a running total of their kind

Each row has a time, an amount and the total of the amounts of its kind up to
its time. A row that is added after all others of its kind continues the totals,
and the latest row of a kind tells the total of all.
-/

section RunningTotals

variable {α κ T A : Type} [DecidableEq κ] [LinearOrder T] [AddCommMonoid A] (kind : α → κ)
  (time : α → T) (amount total : α → A)

/-- The sum over the rows of a kind up to a time. -/
def upTo (rows : List α) (k : κ) (t : T) : A :=
  ((rows.filter fun r => kind r = k ∧ time r ≤ t).map amount).sum

structure Chained (rows : List α) : Prop where
  ordered : rows.Pairwise fun r r' => kind r = kind r' → time r < time r'
  totals : ∀ r ∈ rows, total r = upTo kind time amount rows (kind r) (time r)

variable {kind time amount total} {rows : List α} {new r : α} {k : κ}

theorem chained_nil : Chained kind time amount total [] :=
  ⟨.nil, fun _ member => nomatch member⟩

/-- Rows that are all before a time are all summed up to it. -/
theorem upTo_eq_totalOf {t : T} (before : ∀ r ∈ rows, kind r = k → time r ≤ t) :
    upTo kind time amount rows k t = totalOf kind amount k rows := by
  unfold upTo totalOf
  rw [List.filter_congr fun r member => ?_]
  by_cases same : kind r = k
  · simp [same, before r member same]
  · simp [same]

theorem upTo_append (k : κ) (t : T) : upTo kind time amount (rows ++ [new]) k t =
    upTo kind time amount rows k t + if kind new = k ∧ time new ≤ t then amount new else 0 := by
  unfold upTo
  rw [List.filter_append, List.map_append, List.sum_append]
  by_cases counts : kind new = k ∧ time new ≤ t
  · simp [counts]
  · simp [counts]

/-- A row after all others of its kind continues the total. -/
theorem Chained.append (chained : Chained kind time amount total rows)
    (later : ∀ r ∈ rows, kind r = kind new → time r < time new)
    (continues : total new = totalOf kind amount (kind new) rows + amount new) :
    Chained kind time amount total (rows ++ [new]) := by
  refine ⟨List.pairwise_append.mpr ⟨chained.ordered, List.pairwise_singleton _ _, ?_⟩, ?_⟩
  · intro r member other only same
    rw [List.mem_singleton.mp only] at same ⊢
    exact later r member same
  · intro r member
    rw [upTo_append]
    rcases List.mem_append.mp member with old | only
    · have beyond : ¬ (kind new = kind r ∧ time new ≤ time r) := fun counts =>
        absurd counts.2 (not_le.mpr (later r old counts.1.symm))
      rw [if_neg beyond, add_zero]
      exact chained.totals r old
    · rw [List.mem_singleton.mp only, if_pos ⟨rfl, le_rfl⟩,
        upTo_eq_totalOf fun r old same => (later r old same).le]
      exact continues

/-- The latest row of a kind tells the total of all. -/
theorem Chained.latest (chained : Chained kind time amount total rows)
    (latest : r ∈ latestRows time (rows.filter fun row => kind row = k)) :
    total r = totalOf kind amount k rows := by
  obtain ⟨member, last⟩ := mem_latestRows.mp latest
  obtain ⟨stored, same⟩ := List.mem_filter.mp member
  rw [chained.totals r stored, of_decide_eq_true same]
  exact upTo_eq_totalOf fun other inside its =>
    last other (List.mem_filter.mpr ⟨inside, decide_eq_true its⟩)

/-- Changes elsewhere in the rows. -/
theorem Chained.map {f : α → α} (chained : Chained kind time amount total rows)
    (same : ∀ r, kind (f r) = kind r ∧ time (f r) = time r ∧ amount (f r) = amount r ∧
      total (f r) = total r) : Chained kind time amount total (rows.map f) := by
  have sums : ∀ k t, upTo kind time amount (rows.map f) k t = upTo kind time amount rows k t := by
    intro k t
    unfold upTo
    rw [List.filter_map, List.map_map]
    congr 1
    refine List.map_congr_left (fun r _ => (same r).2.2.1) |>.trans ?_
    congr 1
    refine List.filter_congr fun r _ => ?_
    simp [same r]
  constructor
  · refine List.pairwise_map.mpr (chained.ordered.imp fun earlier equal => ?_)
    rw [(same _).1, (same _).1] at equal
    rw [(same _).2.1, (same _).2.1]
    exact earlier equal
  · intro r' member
    obtain ⟨r, inside, rfl⟩ := List.mem_map.mp member
    rw [(same r).2.2.2, sums, (same r).1, (same r).2.1]
    exact chained.totals r inside

/-- No two rows of a kind are of one time. -/
theorem Chained.distinct {β : Type} (label : α → β) (chained : Chained kind time amount total rows)
    (finer : ∀ r r', label r = label r' → time r = time r') (k : κ) :
    ((rows.filter fun row => kind row = k).map label).Nodup := by
  have within : (rows.filter fun row => kind row = k).Pairwise fun r r' => time r < time r' :=
    (List.Pairwise.sublist List.filter_sublist chained.ordered).imp_of_mem
      fun inside inside' earlier => earlier ((of_decide_eq_true (List.mem_filter.mp inside).2).trans
        (of_decide_eq_true (List.mem_filter.mp inside').2).symm)
  exact List.pairwise_map.mpr (within.imp fun earlier equal =>
    absurd (finer _ _ equal) earlier.ne)

end RunningTotals

/-! ## Rows that carry on from one another

Each row opens at an amount, moves it and closes. Where a row opens elsewhere than the one
before it closed, or closes elsewhere than where it opened and moved to, the rows break off.
-/

section Snapshots

variable {α A : Type} [AddCommGroup A] (opens moves closes : α → A)

/-- What the rows, the oldest first, come to beside what they carry on from an amount and move. -/
def breaks : A → List α → A
  | _, [] => 0
  | left, r :: rest => (opens r - left) + (closes r - (opens r + moves r)) + breaks (closes r) rest

def CarriesOn : A → List α → Prop
  | _, [] => True
  | left, r :: rest => opens r = left ∧ closes r = opens r + moves r ∧ CarriesOn (closes r) rest

/-- What the last row closes at, or the amount itself where there is no row. -/
def leftBy (left : A) (rows : List α) : A := (rows.getLast?.map closes).getD left

variable {opens moves closes} {left : A} {rows : List α}

omit [AddCommGroup A] in
theorem leftBy_cons (r : α) (rest : List α) : leftBy closes left (r :: rest) = leftBy closes (closes r) rest := by
  cases rest with
  | nil => rfl
  | cons next rest => rw [leftBy, leftBy, List.getLast?_cons_cons, List.getLast?_cons, Option.map_some, Option.getD_some,
      Option.getD_some]

omit [AddCommGroup A] in
@[simp] theorem leftBy_append_singleton (r : α) : leftBy closes left (rows ++ [r]) = closes r := by
  simp [leftBy]

/-- What is left is what was there, what the rows move and what they break off. -/
theorem leftBy_eq (left : A) (rows : List α) :
    leftBy closes left rows = left + (rows.map moves).sum + breaks opens moves closes left rows := by
  induction rows generalizing left with
  | nil => simp [leftBy, breaks]
  | cons r rest ih =>
    rw [leftBy_cons, ih (closes r), List.map_cons, List.sum_cons, breaks]
    abel

theorem CarriesOn.breaks_eq_zero (carried : CarriesOn opens moves closes left rows) :
    breaks opens moves closes left rows = 0 := by
  induction rows generalizing left with
  | nil => rfl
  | cons r rest ih =>
    obtain ⟨opened, closed, later⟩ := carried
    rw [breaks, ih later, opened, closed, opened]
    abel

theorem carriesOn_append {more : List α} : CarriesOn opens moves closes left (rows ++ more) ↔
    CarriesOn opens moves closes left rows ∧ CarriesOn opens moves closes (leftBy closes left rows) more := by
  induction rows generalizing left with
  | nil => simp [CarriesOn, leftBy]
  | cons r rest ih => rw [List.cons_append, CarriesOn, ih, CarriesOn, leftBy_cons, and_assoc, and_assoc]

end Snapshots

end MiniHedge.Library
