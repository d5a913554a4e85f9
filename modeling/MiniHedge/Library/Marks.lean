import Mathlib.Algebra.Order.Group.Int
import Mathlib.Data.Finset.Card
import Mathlib.Order.Interval.Finset.Basic
import Mathlib.Data.Int.ConditionallyCompleteOrder
import Mathlib.Data.Int.Interval
import Mathlib.Tactic.Positivity
import Mathlib.Tactic.Ring

/-! Marked places on a line, and the place that is reached when so many are passed. -/

set_option autoImplicit false

namespace MiniHedge.Library

section Marks

variable (mark : ℤ → Prop) [DecidablePred mark]

/-- How many marks come after one place, up to another. -/
noncomputable def passed (start stop : ℤ) : ℕ := ((Finset.Ioc start stop).filter mark).card

theorem passed_congr {mark' : ℤ → Prop} [DecidablePred mark'] (same : ∀ place, mark place ↔ mark' place)
    (start stop : ℤ) : passed mark start stop = passed mark' start stop :=
  congrArg Finset.card (Finset.filter_congr fun place _ => same place)

theorem passed_self (start : ℤ) : passed mark start start = 0 := by
  simp [passed]

theorem passed_add {start middle stop : ℤ} (first : start ≤ middle) (second : middle ≤ stop) :
    passed mark start stop = passed mark start middle + passed mark middle stop := by
  have union : Finset.Ioc start stop = Finset.Ioc start middle ∪ Finset.Ioc middle stop :=
    (Finset.Ioc_union_Ioc_eq_Ioc first second).symm
  have apart : Disjoint (Finset.Ioc start middle) (Finset.Ioc middle stop) := by
    rw [Finset.disjoint_left]
    intro place left right
    rw [Finset.mem_Ioc] at left right
    omega
  rw [passed, union, Finset.filter_union, Finset.card_union_of_disjoint (Finset.disjoint_filter_filter apart)]
  rfl

theorem passed_mono (start : ℤ) {stop stop' : ℤ} (further : stop ≤ stop') :
    passed mark start stop ≤ passed mark start stop' :=
  Finset.card_le_card (Finset.filter_subset_filter mark (Finset.Ioc_subset_Ioc_right further))

theorem passed_next (place : ℤ) : passed mark place (place + 1) = if mark (place + 1) then 1 else 0 := by
  have one : Finset.Ioc place (place + 1) = {place + 1} := by
    ext other
    rw [Finset.mem_Ioc, Finset.mem_singleton]
    omega
  rw [passed, one, Finset.filter_singleton]
  split
  · rfl
  · rfl

theorem passed_pos {start stop place : ℤ} (after : start < place) (upto : place ≤ stop) (marked : mark place) :
    0 < passed mark start stop :=
  Finset.card_pos.mpr ⟨place, Finset.mem_filter.mpr ⟨Finset.mem_Ioc.mpr ⟨after, upto⟩, marked⟩⟩

/-- The place that is reached when so many marks are passed, and no later than that. -/
structure Reaches (start : ℤ) (n : ℕ) (stop : ℤ) : Prop where
  ahead : start ≤ stop
  count : passed mark start stop = n
  last : stop = start ∨ mark stop

variable {mark} {start stop : ℤ} {m n : ℕ}

/-- No place that so many marks come up to is before it. -/
theorem Reaches.least (reaches : Reaches mark start n stop) {place : ℤ} (ahead : start ≤ place)
    (enough : n ≤ passed mark start place) : stop ≤ place := by
  by_contra before
  rcases reaches.last with rfl | marked
  · exact before ahead
  · -- the mark at the end is one more
    have more := passed_pos mark (not_le.mp before) le_rfl marked
    have whole := passed_add mark ahead (not_le.mp before).le
    rw [reaches.count] at whole
    omega

theorem Reaches.unique (reaches : Reaches mark start n stop) {other : ℤ}
    (also : Reaches mark start n other) : stop = other :=
  le_antisymm (reaches.least also.ahead also.count.ge) (also.least reaches.ahead reaches.count.ge)

theorem Reaches.marked (reaches : Reaches mark start n stop) (some_passed : 0 < n) : mark stop := by
  rcases reaches.last with rfl | marked
  · rw [← reaches.count, passed_self] at some_passed
    exact absurd some_passed (lt_irrefl 0)
  · exact marked

theorem Reaches.zero (start : ℤ) : Reaches mark start 0 start :=
  ⟨le_rfl, passed_self mark start, .inl rfl⟩

/-- From a later start, with more marks to pass, no earlier place is reached. -/
theorem Reaches.mono (reaches : Reaches mark start m stop) {start' stop' : ℤ} (later : start ≤ start')
    (more : m ≤ n) (also : Reaches mark start' n stop') : stop ≤ stop' := by
  apply reaches.least (later.trans also.ahead)
  rw [passed_add mark later also.ahead, also.count]
  omega

theorem Reaches.add (first : Reaches mark start m stop) {stop' : ℤ} (second : Reaches mark stop n stop') :
    Reaches mark start (m + n) stop' where
  ahead := first.ahead.trans second.ahead
  count := by rw [passed_add mark first.ahead second.ahead, first.count, second.count]
  last := by
    rcases second.last with rfl | marked
    · exact first.last
    · exact .inr marked

/-- A step to the next place. -/
theorem Reaches.step (reaches : Reaches mark (start + 1) n stop) (some_left : 0 < n ∨ mark (start + 1)) :
    Reaches mark start ((if mark (start + 1) then 1 else 0) + n) stop where
  ahead := by
    have ahead := reaches.ahead
    omega
  count := by rw [passed_add mark (by omega) reaches.ahead, passed_next, reaches.count]
  last := by
    rcases reaches.last with rfl | marked
    · rcases some_left with more | marked
      · rw [← reaches.count, passed_self] at more
        exact absurd more (lt_irrefl 0)
      · exact .inr marked
    · exact .inr marked

/-! ## How far it is -/

/-- Where a mark is in every stretch of that length, so many stretches pass as many marks. -/
theorem le_passed_of_dense {width : ℕ} (dense : ∀ place, 0 < passed mark place (place + width)) (start : ℤ)
    (n : ℕ) : n ≤ passed mark start (start + width * n) := by
  induction n with
  | zero => exact Nat.zero_le _
  | succ n ih =>
    have here : start ≤ start + width * n := by
      have nonneg : (0 : ℤ) ≤ width * n := by positivity
      omega
    have next : start + (width : ℤ) * (n + 1 : ℕ) = start + width * n + width := by
      push_cast
      ring
    rw [next, passed_add mark here (by omega)]
    have one := dense (start + width * n)
    omega

/-- Finitely many marks may be taken away. -/
theorem passed_le_add_removed (removed : List ℤ) (start stop : ℤ) :
    passed mark start stop ≤ passed (fun place => mark place ∧ place ∉ removed) start stop + removed.length := by
  have covered : (Finset.Ioc start stop).filter mark ⊆
      (Finset.Ioc start stop).filter (fun place => mark place ∧ place ∉ removed) ∪ removed.toFinset := by
    intro place member
    rw [Finset.mem_filter] at member
    rw [Finset.mem_union, Finset.mem_filter, List.mem_toFinset]
    by_cases gone : place ∈ removed
    · exact .inr gone
    · exact .inl ⟨member.1, member.2, gone⟩
  have counted := (Finset.card_le_card covered).trans (Finset.card_union_le _ _)
  have few := List.toFinset_card_le removed
  unfold passed
  omega

end Marks

/-! ## The loop -/

/-- `while added < days`, for so many turns at most: one step, and one more if it came to a mark. -/
def addLoop (mark : ℤ → Bool) (days : ℤ) : ℕ → ℤ → ℤ → Option ℤ
  | turns, current, added =>
    if days ≤ added then some current
    else match turns with
      | 0 => none
      | turns + 1 => addLoop mark days turns (current + 1) (if mark (current + 1) then added + 1 else added)

/-- Where enough marks come within its turns, the loop ends at the last of those that it counts. -/
theorem addLoop_reaches {mark : ℤ → Bool} {days : ℤ} {turns n : ℕ} {current added : ℤ} (left : days = added + n)
    (enough : n ≤ passed (fun place => mark place) current (current + turns)) :
    ∃ stop, addLoop mark days turns current added = some stop ∧
      Reaches (fun place => mark place) current n stop := by
  induction turns generalizing n current added with
  | zero =>
    have none_left : n = 0 := by
      rw [Nat.cast_zero, add_zero, passed_self] at enough
      omega
    subst none_left
    rw [addLoop, if_pos (by omega)]
    exact ⟨current, rfl, .zero current⟩
  | succ turns ih =>
    rw [addLoop]
    by_cases done : n = 0
    · subst done
      rw [if_pos (by omega)]
      exact ⟨current, rfl, .zero current⟩
    · rw [if_neg (by omega)]
      have later : current + 1 + turns = current + (turns + 1 : ℕ) := by
        push_cast
        ring
      rw [passed_add (fun place => mark place) (by omega : current ≤ current + 1) (by omega), passed_next,
        ← later] at enough
      by_cases here : mark (current + 1)
      · rw [if_pos here] at enough ⊢
        have left' : days = added + 1 + (n - 1 : ℕ) := by omega
        have enough' : n - 1 ≤ passed (fun place => mark place) (current + 1) (current + 1 + turns) := by
          omega
        obtain ⟨stop, ended, reaches⟩ := ih left' enough'
        have stepped := Reaches.step reaches (.inr here)
        rw [if_pos here, show 1 + (n - 1) = n by omega] at stepped
        exact ⟨stop, ended, stepped⟩
      · rw [if_neg here] at enough ⊢
        rw [zero_add] at enough
        obtain ⟨stop, ended, reaches⟩ := ih left enough
        have stepped := Reaches.step reaches (.inl (Nat.pos_of_ne_zero done))
        rw [if_neg here, zero_add] at stepped
        exact ⟨stop, ended, stepped⟩

/-- `while not mark(current)`, for so many turns at most. -/
def seekLoop (mark : ℤ → Bool) : ℕ → ℤ → Option ℤ
  | turns, current =>
    if mark current then some current
    else match turns with
      | 0 => none
      | turns + 1 => seekLoop mark turns (current + 1)

/-- It ends at the first mark from where it starts. -/
theorem seekLoop_reaches {mark : ℤ → Bool} {turns : ℕ} {current : ℤ}
    (enough : 0 < passed (fun place => mark place) (current - 1) (current + turns)) :
    ∃ stop, seekLoop mark turns current = some stop ∧ Reaches (fun place => mark place) (current - 1) 1 stop := by
  have first := passed_next (fun place => mark place) (current - 1)
  rw [sub_add_cancel] at first
  induction turns generalizing current with
  | zero =>
    rw [Nat.cast_zero, add_zero, first] at enough
    have here : mark current := by
      by_contra other
      rw [if_neg other] at enough
      exact lt_irrefl 0 enough
    rw [seekLoop, if_pos here]
    rw [if_pos here] at first
    exact ⟨current, rfl, by omega, first, .inr here⟩
  | succ turns ih =>
    rw [seekLoop]
    by_cases here : mark current
    · rw [if_pos here] at first ⊢
      exact ⟨current, rfl, by omega, first, .inr here⟩
    · rw [if_neg here] at first ⊢
      have later : current + 1 + turns = current + (turns + 1 : ℕ) := by
        push_cast
        ring
      have next := passed_next (fun place => mark place) current
      rw [passed_add (fun place => mark place) (by omega : current - 1 ≤ current) (by omega), first, zero_add,
        ← later] at enough
      have enough' : 0 < passed (fun place => mark place) (current + 1 - 1) (current + 1 + turns) := by
        rwa [add_sub_cancel_right]
      obtain ⟨stop, ended, reaches⟩ := ih enough' (by rwa [add_sub_cancel_right])
      rw [add_sub_cancel_right] at reaches
      have stepped : Reaches (fun place => mark place) (current - 1)
          ((if mark (current - 1 + 1) then 1 else 0) + 1) stop :=
        Reaches.step (by rwa [sub_add_cancel]) (.inl one_pos)
      rw [sub_add_cancel, if_neg here, zero_add] at stepped
      exact ⟨stop, ended, stepped⟩

/-! ## The first of some candidates -/

/-- Where the values rise, the first candidate that comes up to a bound is the least of all that are allowed,
if no candidate is missing but before all that do or after all there are. -/
theorem find_earliest {f : ℕ → ℤ} {bound : ℤ} {allowed : ℕ → Prop} {candidates : List ℕ}
    (rising : ∀ m ∈ candidates, ∀ n, allowed n → m ≤ n → f m ≤ f n) (sorted : candidates.Pairwise (· < ·))
    (complete : ∀ n, allowed n → n ∈ candidates ∨ f n < bound ∨ ∀ m ∈ candidates, m ≤ n)
    (enough : ∃ m ∈ candidates, bound ≤ f m) :
    ∃ m ∈ candidates, candidates.find? (fun n => bound ≤ f n) = some m ∧ bound ≤ f m ∧
      ∀ n, allowed n → bound ≤ f n → f m ≤ f n := by
  have some_found : (candidates.find? fun n => bound ≤ f n).isSome := by
    rw [List.find?_isSome]
    obtain ⟨m, member, reached⟩ := enough
    exact ⟨m, member, decide_eq_true reached⟩
  obtain ⟨m, found⟩ := Option.isSome_iff_exists.mp some_found
  obtain ⟨reached, before, after, split, none_before⟩ := List.find?_eq_some_iff_append.mp found
  have member : m ∈ candidates := by simp [split]
  refine ⟨m, member, found, of_decide_eq_true reached, ?_⟩
  intro n may reaches
  rcases complete n may with candidate | short | beyond
  · rw [split] at candidate sorted
    rcases List.mem_append.mp candidate with early | late
    · exact absurd (decide_eq_true reaches) (by simpa using none_before n early)
    · rcases List.mem_cons.mp late with rfl | later
      · exact le_rfl
      · have order := (List.pairwise_cons.mp (List.pairwise_append.mp sorted).2.1).1 n later
        exact rising m member n may order.le
  · exact absurd reaches (not_le.mpr short)
  · exact rising m member n may (beyond m member)

end MiniHedge.Library
