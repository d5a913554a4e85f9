import Mathlib.Algebra.Order.Field.Basic
import Mathlib.Data.List.Induction
import Mathlib.Data.List.TakeWhile
import Mathlib.Order.Bounds.Basic
import Mathlib.Tactic.Linarith
import Mathlib.Tactic.Positivity

/-! The largest fall of a series below an earlier value of it, in one pass, and the dips below its tops.

The pass keeps the peak so far and the largest fall from a peak so far. A fall is
relative to the value that it starts from, so that the highest of the earlier values is
the one from which a positive value has fallen furthest.
-/

set_option autoImplicit false

namespace MiniHedge.Library

variable {K : Type} [Field K]

/-- The falls of a series: from each of its values to one that is not before it. -/
def falls (values : List K) : Set K :=
  {x | ∃ (i j : ℕ) (a b : K), i ≤ j ∧ values[i]? = some a ∧ values[j]? = some b ∧ x = (a - b) / a}

/-- Of a series with one more value, the falls are those of the series and those to the value. -/
theorem falls_append (done : List K) (v : K) :
    falls (done ++ [v]) = falls done ∪ {x | ∃ a ∈ done ++ [v], x = (a - v) / a} := by
  ext x
  constructor
  · rintro ⟨i, j, a, b, order, first, second, rfl⟩
    have inside : j < done.length + 1 := by
      obtain ⟨bound, -⟩ := List.getElem?_eq_some_iff.mp second
      simpa using bound
    rcases Nat.lt_succ_iff_lt_or_eq.mp inside with before | rfl
    · rw [List.getElem?_append_left before] at second
      rw [List.getElem?_append_left (Nat.lt_of_le_of_lt order before)] at first
      exact .inl ⟨i, j, a, b, order, first, second, rfl⟩
    · rw [List.getElem?_concat_length] at second
      cases second
      exact .inr ⟨a, List.mem_of_getElem? first, rfl⟩
  · rintro (⟨i, j, a, b, order, first, second, rfl⟩ | ⟨a, member, rfl⟩)
    · refine ⟨i, j, a, b, order, ?_, ?_, rfl⟩
      · rw [List.getElem?_append_left (List.getElem?_eq_some_iff.mp first).1, first]
      · rw [List.getElem?_append_left (List.getElem?_eq_some_iff.mp second).1, second]
    · obtain ⟨i, place⟩ := List.mem_iff_getElem?.mp member
      have inside : i < done.length + 1 := by
        obtain ⟨bound, -⟩ := List.getElem?_eq_some_iff.mp place
        simpa using bound
      exact ⟨i, done.length, a, v, Nat.lt_succ_iff.mp inside, place, List.getElem?_concat_length, rfl⟩

theorem falls_subset (values more : List K) : falls values ⊆ falls (values ++ more) := by
  rintro x ⟨i, j, a, b, order, first, second, rfl⟩
  refine ⟨i, j, a, b, order, ?_, ?_, rfl⟩
  · rw [List.getElem?_append_left (List.getElem?_eq_some_iff.mp first).1, first]
  · rw [List.getElem?_append_left (List.getElem?_eq_some_iff.mp second).1, second]

/-- Falls are relative. -/
theorem falls_scale {c : K} (nonzero : c ≠ 0) (values : List K) : falls (values.map (c * ·)) = falls values := by
  have same : ∀ a b : K, (c * a - c * b) / (c * a) = (a - b) / a := by
    intro a b
    rw [← mul_sub, mul_div_mul_left _ _ nonzero]
  ext x
  constructor
  · rintro ⟨i, j, a, b, order, first, second, rfl⟩
    rw [List.getElem?_map, Option.map_eq_some_iff] at first second
    obtain ⟨a, first, rfl⟩ := first
    obtain ⟨b, second, rfl⟩ := second
    exact ⟨i, j, a, b, order, first, second, same a b⟩
  · rintro ⟨i, j, a, b, order, first, second, rfl⟩
    refine ⟨i, j, c * a, c * b, order, ?_, ?_, (same a b).symm⟩
    · rw [List.getElem?_map, first, Option.map_some]
    · rw [List.getElem?_map, second, Option.map_some]

/-! ## The pass

What a value has lost of a peak is measured by some function of the two, which may round.
-/

structure Descent (K : Type) where
  peak : K
  worst : K

section Pass

variable {K : Type} [Zero K] [LinearOrder K] (loss : K → K → K)

def Descent.next (d : Descent K) (v : K) : Descent K :=
  let peak := if d.peak < v then v else d.peak
  if peak ≠ 0 then
    let fall := loss peak v
    ⟨peak, if d.worst < fall then fall else d.worst⟩
  else ⟨peak, d.worst⟩

def maxDrawdown : List K → K
  | [] => 0
  | first :: rest => ((first :: rest).foldl (Descent.next loss) ⟨first, 0⟩).worst

/-- The losses of the values, each from the highest one so far. -/
def losses (values : List K) : Set K :=
  {x | ∃ before v after peak, values = before ++ v :: after ∧ IsGreatest {u | u ∈ before ++ [v]} peak ∧
    x = loss peak v}

variable {loss}

omit [Zero K] in
theorem exists_highest {values : List K} (nonempty : values ≠ []) : ∃ top, IsGreatest {v | v ∈ values} top := by
  induction values with
  | nil => exact absurd rfl nonempty
  | cons v rest ih =>
    by_cases empty : rest = []
    · exact ⟨v, by simp [empty]⟩
    · obtain ⟨top, highest⟩ := ih empty
      have all : {u | u ∈ v :: rest} = insert v {u | u ∈ rest} := Set.ext fun u => List.mem_cons
      exact ⟨max v top, all ▸ highest.insert v⟩

omit [Zero K] in
theorem losses_append (done : List K) {v peak : K} (top : IsGreatest {u | u ∈ done ++ [v]} peak) :
    losses loss (done ++ [v]) = losses loss done ∪ {loss peak v} := by
  apply Set.ext
  intro x
  constructor
  · rintro ⟨before, w, after, peak', split, top', rfl⟩
    rcases List.eq_nil_or_concat after with rfl | ⟨after, last, rfl⟩
    · obtain ⟨rfl, same⟩ := List.append_inj' split rfl
      obtain rfl := List.singleton_injective same
      rw [top.unique top']
      exact .inr rfl
    · have parts : done = before ++ w :: after ∧ [v] = [last] := List.append_inj' (by rw [split]; simp) rfl
      exact .inl ⟨before, w, after, peak', parts.1, top', rfl⟩
  · rintro (⟨before, w, after, peak', rfl, top', rfl⟩ | rfl)
    · exact ⟨before, w, after ++ [v], peak', by simp, top', rfl⟩
    · exact ⟨done, v, [], peak, rfl, top, rfl⟩

/-- What the pass keeps once it has read some values. -/
structure Descent.Of (loss : K → K → K) (done : List K) (d : Descent K) : Prop where
  peak : IsGreatest {v | v ∈ done} d.peak
  worst : IsGreatest (losses loss done) d.worst

theorem Descent.Of.next {done : List K} {d : Descent K} (kept : d.Of loss done) {v : K}
    (positive : ∀ u ∈ done ++ [v], 0 < u) : (d.next loss v).Of loss (done ++ [v]) := by
  have top : IsGreatest {u | u ∈ done ++ [v]} (if d.peak < v then v else d.peak) := by
    split
    · rename_i above
      refine ⟨by simp, ?_⟩
      intro u member
      rcases List.mem_append.mp member with before | last
      · exact (kept.peak.2 before).trans above.le
      · exact (List.mem_singleton.mp last).le
    · rename_i below
      refine ⟨List.mem_append_left _ kept.peak.1, ?_⟩
      intro u member
      rcases List.mem_append.mp member with before | last
      · exact kept.peak.2 before
      · exact (List.mem_singleton.mp last).le.trans (not_lt.mp below)
  unfold Descent.next
  generalize (if d.peak < v then v else d.peak) = peak at top ⊢
  have worst := kept.worst.union (isGreatest_singleton (a := loss peak v))
  rw [← losses_append done top] at worst
  dsimp only
  rw [if_pos (positive peak top.1).ne']
  refine ⟨top, ?_⟩
  rwa [max_def_lt] at worst

section Whole

variable (self : ∀ v, 0 < v → loss v v = 0)
include self

theorem descent_whole {first : K} {rest : List K} (positive : ∀ v ∈ first :: rest, 0 < v) :
    ((first :: rest).foldl (Descent.next loss) ⟨first, 0⟩).Of loss (first :: rest) := by
  have above := positive first List.mem_cons_self
  have start : (Descent.mk first 0).Of loss [first] := by
    constructor
    · simp
    · have only : IsGreatest {v | v ∈ [] ++ [first]} first := by simp
      have one : losses loss ([] ++ [first]) = losses loss [] ∪ {loss first first} := losses_append [] only
      rw [List.nil_append] at one
      rw [one, self first above]
      have none_before : losses loss ([] : List K) = ∅ := by
        rw [Set.eq_empty_iff_forall_notMem]
        rintro x ⟨before, v, after, peak, split, -⟩
        simp at split
      rw [none_before, Set.empty_union]
      exact isGreatest_singleton
  have opened : (Descent.mk first 0).next loss first = ⟨first, 0⟩ := by
    simp [Descent.next, self first above]
  suffices general : ∀ done (d : Descent K), d.Of loss done → (∀ v ∈ done ++ rest, 0 < v) →
      (rest.foldl (Descent.next loss) d).Of loss (done ++ rest) by
    rw [List.foldl_cons, opened]
    exact general [first] _ start positive
  clear positive above start opened
  induction rest with
  | nil =>
    intro done d kept _
    simpa using kept
  | cons v rest ih =>
    intro done d kept positive
    rw [List.append_cons] at positive ⊢
    apply ih _ _ _ positive
    exact kept.next fun u member => positive u (List.mem_append_left rest member)

/-- The pass finds the largest loss. -/
theorem maxDrawdown_losses {values : List K} (nonempty : values ≠ []) (positive : ∀ v ∈ values, 0 < v) :
    IsGreatest (losses loss values) (maxDrawdown loss values) := by
  obtain ⟨first, rest, rfl⟩ := List.exists_cons_of_ne_nil nonempty
  exact (descent_whole self positive).worst

end Whole

theorem Descent.worst_le_next (d : Descent K) (v : K) : d.worst ≤ (d.next loss v).worst := by
  unfold Descent.next
  generalize (if d.peak < v then v else d.peak) = peak
  dsimp only
  split
  · rw [← max_def_lt]
    exact le_max_left _ _
  · exact le_rfl

theorem Descent.worst_le_foldl (d : Descent K) (values : List K) :
    d.worst ≤ (values.foldl (Descent.next loss) d).worst := by
  induction values generalizing d with
  | nil => exact le_rfl
  | cons v rest ih => exact (d.worst_le_next v).trans (ih _)

variable (loss)

theorem maxDrawdown_nonneg (values : List K) : 0 ≤ maxDrawdown loss values := by
  cases values with
  | nil => exact le_rfl
  | cons first rest => exact Descent.worst_le_foldl ⟨first, 0⟩ (first :: rest)

/-- More values do not make up for a loss. -/
theorem maxDrawdown_append (values more : List K) : maxDrawdown loss values ≤ maxDrawdown loss (values ++ more) := by
  cases values with
  | nil => exact maxDrawdown_nonneg loss _
  | cons first rest =>
    rw [List.cons_append, maxDrawdown, maxDrawdown, ← List.cons_append, List.foldl_append]
    exact Descent.worst_le_foldl _ more

/-- Losses that are told by a monotone function of others. -/
theorem maxDrawdown_comp {loss' : K → K → K} {f : K → K} (zero : f 0 = 0) (mono : MonotoneOn f (Set.Ici 0))
    {values : List K} (positive : ∀ v ∈ values, 0 < v)
    (nonneg : ∀ p v, 0 < v → v ≤ p → 0 ≤ loss p v)
    (told : ∀ p ∈ values, ∀ v ∈ values, v ≤ p → loss' p v = f (loss p v)) :
    maxDrawdown loss' values = f (maxDrawdown loss values) := by
  cases values with
  | nil => exact zero.symm
  | cons first rest =>
    have all : ∀ (more : List K), (∀ v ∈ more, v ∈ first :: rest) → ∀ d : Descent K, d.peak ∈ first :: rest →
        0 ≤ d.worst → more.foldl (Descent.next loss') ⟨d.peak, f d.worst⟩ =
          ⟨(more.foldl (Descent.next loss) d).peak, f (more.foldl (Descent.next loss) d).worst⟩ := by
      intro more
      induction more with
      | nil => exact fun _ d _ _ => rfl
      | cons v more ih =>
        intro inside d peak worst
        have own := inside v List.mem_cons_self
        have top : (if d.peak < v then v else d.peak) ∈ first :: rest := by
          split
          · exact own
          · exact peak
        have below : v ≤ if d.peak < v then v else d.peak := by
          split
          · exact le_rfl
          · rename_i under
            exact not_lt.mp under
        have nonzero := (positive _ top).ne'
        have fall := nonneg _ v (positive v own) below
        have next : (Descent.mk d.peak (f d.worst)).next loss' v =
            ⟨(d.next loss v).peak, f (d.next loss v).worst⟩ := by
          simp only [Descent.next, if_pos nonzero, told _ top v own below]
          generalize (if d.peak < v then v else d.peak) = highest at fall ⊢
          rw [← max_def_lt, ← max_def_lt, mono.map_max worst fall]
        have kept : (d.next loss v).peak ∈ first :: rest := by
          simpa only [Descent.next, if_pos nonzero] using top
        rw [List.foldl_cons, List.foldl_cons, next]
        exact ih (fun u member => inside u (List.mem_cons_of_mem v member)) _ kept
          (worst.trans (d.worst_le_next v))
    have whole := all (first :: rest) (fun _ member => member) ⟨first, 0⟩ List.mem_cons_self le_rfl
    rw [zero] at whole
    rw [maxDrawdown, whole]
    rfl

end Pass

/-! ## Falls -/

/-- The loss of a peak, without any rounding. -/
def fallFrom (peak v : K) : K := (peak - v) / peak

theorem fallFrom_self (v : K) : fallFrom v v = 0 := by rw [fallFrom, sub_self, zero_div]

variable [LinearOrder K] [IsStrictOrderedRing K]

theorem fall_mono {a peak v : K} (positive : 0 < a) (higher : a ≤ peak) (nonneg : 0 ≤ v) :
    (a - v) / a ≤ (peak - v) / peak := by
  have positive' : 0 < peak := positive.trans_le higher
  rw [sub_div, sub_div, div_self positive.ne', div_self positive'.ne']
  have deeper : v / peak ≤ v / a := div_le_div_of_nonneg_left nonneg positive higher
  linarith

theorem fallFrom_nonneg {peak v : K} (positive : 0 < v) (below : v ≤ peak) : 0 ≤ fallFrom peak v :=
  div_nonneg (sub_nonneg.mpr below) (positive.le.trans below)

/-- The pass finds the largest fall of a series of positive values. -/
theorem maxDrawdown_greatest {values : List K} (nonempty : values ≠ []) (positive : ∀ v ∈ values, 0 < v) :
    IsGreatest (falls values) (maxDrawdown fallFrom values) := by
  obtain ⟨⟨before, v, after, peak, split, top, same⟩, deepest⟩ :=
    maxDrawdown_losses (fun (v : K) _ => fallFrom_self v) nonempty positive
  constructor
  · obtain ⟨i, place⟩ := List.mem_iff_getElem?.mp top.1
    have inside : i < before.length + 1 := by
      obtain ⟨bound, -⟩ := List.getElem?_eq_some_iff.mp place
      simpa using bound
    refine ⟨i, before.length, peak, v, Nat.lt_succ_iff.mp inside, ?_, by simp [split], same⟩
    rw [split, List.append_cons, List.getElem?_append_left (by simpa using inside), place]
  · rintro x ⟨i, j, a, b, order, first, second, rfl⟩
    obtain ⟨bound, own⟩ := List.getElem?_eq_some_iff.mp second
    have parts : values = values.take j ++ b :: values.drop (j + 1) := by
      rw [← own, List.cons_getElem_drop_succ, List.take_append_drop]
    have earlier : a ∈ values.take j ++ [b] := by
      rcases order.lt_or_eq with before | rfl
      · exact List.mem_append_left _ (List.mem_of_getElem? (i := i) (by rwa [List.getElem?_take_of_lt before]))
      · rw [first] at second
        simp [Option.some.inj second]
    obtain ⟨top, highest⟩ := exists_highest (List.ne_nil_of_mem earlier)
    have loss := deepest ⟨values.take j, b, values.drop (j + 1), top, parts, highest, rfl⟩
    have positiveA := positive a (List.mem_of_getElem? first)
    have positiveB := positive b (List.mem_of_getElem? second)
    exact (fall_mono positiveA (highest.2 earlier) positiveB.le).trans loss

section Bounds

variable {values : List K} (positive : ∀ v ∈ values, 0 < v)
include positive

theorem maxDrawdown_scale {c : K} (scale : 0 < c) :
    maxDrawdown fallFrom (values.map (c * ·)) = maxDrawdown fallFrom values := by
  by_cases empty : values = []
  · rw [empty, List.map_nil]
  · have scaled : ∀ v ∈ values.map (c * ·), 0 < v := by
      intro v member
      obtain ⟨u, inside, rfl⟩ := List.mem_map.mp member
      exact mul_pos scale (positive u inside)
    have own := maxDrawdown_greatest (mt List.map_eq_nil_iff.mp empty) scaled
    rw [falls_scale scale.ne'] at own
    exact own.unique (maxDrawdown_greatest empty positive)

end Bounds

/-! ## Dips

A dip begins at the last of the highest points so far, and lasts until the series is back.
-/

section Dips

variable {P : Type} {K : Type} [LinearOrder K] (value : P → K)

/-- The last of the highest points, with what is before it and after it. -/
structure IsTop (before : List P) (top : P) (below : List P) : Prop where
  highest : ∀ pt ∈ before, value pt ≤ value top
  below : ∀ pt ∈ below, value pt < value top

/-- The first of the lowest points. -/
def IsLow (pts : List P) (low : P) : Prop :=
  ∃ earlier later, pts = earlier ++ low :: later ∧ (∀ pt ∈ earlier, value low < value pt) ∧
    ∀ pt ∈ later, value low ≤ value pt

structure Dip (P : Type) where
  top : P
  low : P
  back : Option P

/-- A dip of the series: the points below the top, up to the first that is not. -/
def IsDip (pts : List P) (dip : Dip P) : Prop :=
  ∃ before below rest, pts = before ++ dip.top :: (below ++ rest) ∧ IsTop value before dip.top below ∧
    IsLow value below dip.low ∧ rest.head? = dip.back ∧ ∀ back ∈ dip.back, value dip.top ≤ value back

variable {value}

theorem exists_top {pts : List P} (nonempty : pts ≠ []) :
    ∃ before top below, pts = before ++ top :: below ∧ IsTop value before top below := by
  induction pts using List.reverseRecOn with
  | nil => exact absurd rfl nonempty
  | append_singleton pts pt ih =>
    by_cases empty : pts = []
    · subst empty
      exact ⟨[], pt, [], rfl, ⟨by simp, by simp⟩⟩
    · obtain ⟨before, top, below, rfl, isTop⟩ := ih empty
      by_cases under : value pt < value top
      · refine ⟨before, top, below ++ [pt], by simp, ⟨isTop.highest, ?_⟩⟩
        intro u member
        rcases List.mem_append.mp member with inside | last
        · exact isTop.below u inside
        · rwa [List.mem_singleton.mp last]
      · refine ⟨before ++ top :: below, pt, [], rfl, ⟨?_, by simp⟩⟩
        intro u member
        apply le_trans _ (not_lt.mp under)
        rcases List.mem_append.mp member with earlier | own
        · exact isTop.highest u earlier
        · rcases List.mem_cons.mp own with rfl | inside
          · exact le_rfl
          · exact (isTop.below u inside).le

/-- The places of two points of one list, where they differ. -/
theorem append_cons_cases {before before' after after' : List P} {pt pt' : P}
    (same : before ++ pt :: after = before' ++ pt' :: after') :
    (before = before' ∧ pt = pt' ∧ after = after') ∨ (pt ∈ before' ∧ pt' ∈ after) ∨ pt' ∈ before ∧ pt ∈ after' := by
  rcases List.append_eq_append_iff.mp same with ⟨between, rfl, first⟩ | ⟨between, rfl, second⟩
  · cases between with
    | nil =>
      obtain ⟨rfl, rfl⟩ := List.cons.inj first
      exact .inl ⟨(List.append_nil before).symm, rfl, rfl⟩
    | cons head between =>
      obtain ⟨rfl, rfl⟩ := List.cons.inj first
      exact .inr (.inl ⟨by simp, by simp⟩)
  · cases between with
    | nil =>
      obtain ⟨rfl, rfl⟩ := List.cons.inj second
      exact .inl ⟨List.append_nil before', rfl, rfl⟩
    | cons head between =>
      obtain ⟨rfl, rfl⟩ := List.cons.inj second
      exact .inr (.inr ⟨by simp, by simp⟩)

theorem IsTop.unique {before before' below below' : List P} {top top' : P} (isTop : IsTop value before top below)
    (isTop' : IsTop value before' top' below') (same : before ++ top :: below = before' ++ top' :: below') :
    before = before' ∧ top = top' ∧ below = below' := by
  rcases append_cons_cases same with equal | ⟨former, latter⟩ | ⟨former, latter⟩
  · exact equal
  · exact absurd (isTop'.highest top former) (not_le.mpr (isTop.below top' latter))
  · exact absurd (isTop.highest top' former) (not_le.mpr (isTop'.below top latter))

theorem IsLow.unique {pts : List P} {low low' : P} (isLow : IsLow value pts low) (isLow' : IsLow value pts low') :
    low = low' := by
  obtain ⟨earlier, later, rfl, above, least⟩ := isLow
  obtain ⟨earlier', later', same, above', least'⟩ := isLow'
  rcases append_cons_cases same with ⟨-, equal, -⟩ | ⟨former, latter⟩ | ⟨former, latter⟩
  · exact equal
  · exact absurd (least low' latter) (not_le.mpr (above' low former))
  · exact absurd (least' low latter) (not_le.mpr (above low' former))

theorem isLow_single (pt : P) : IsLow value [pt] pt := ⟨[], [], rfl, by simp, by simp⟩

theorem IsLow.ne_nil {pts : List P} {low : P} (isLow : IsLow value pts low) : pts ≠ [] := by
  obtain ⟨earlier, later, rfl, -, -⟩ := isLow
  simp

theorem IsLow.mem {pts : List P} {low : P} (isLow : IsLow value pts low) : low ∈ pts := by
  obtain ⟨earlier, later, rfl, -, -⟩ := isLow
  simp

theorem IsLow.le {pts : List P} {low : P} (isLow : IsLow value pts low) {pt : P} (member : pt ∈ pts) :
    value low ≤ value pt := by
  obtain ⟨earlier, later, rfl, above, least⟩ := isLow
  rcases List.mem_append.mp member with before | own
  · exact (above pt before).le
  · rcases List.mem_cons.mp own with rfl | after
    · exact le_rfl
    · exact least pt after

/-- One more point is the first of the lowest, or the one that was stays it. -/
theorem IsLow.append {pts : List P} {low : P} (isLow : IsLow value pts low) (pt : P) :
    IsLow value (pts ++ [pt]) (if value pt < value low then pt else low) := by
  split
  · rename_i lower
    exact ⟨pts, [], rfl, fun u member => lower.trans_le (isLow.le member), by simp⟩
  · rename_i higher
    obtain ⟨earlier, later, rfl, above, least⟩ := isLow
    refine ⟨earlier, later ++ [pt], by simp, above, ?_⟩
    intro u member
    rcases List.mem_append.mp member with before | last
    · exact least u before
    · rw [List.mem_singleton.mp last]
      exact not_lt.mp higher

theorem exists_low {pts : List P} (nonempty : pts ≠ []) : ∃ low, IsLow value pts low := by
  induction pts using List.reverseRecOn with
  | nil => exact absurd rfl nonempty
  | append_singleton pts pt ih =>
    by_cases empty : pts = []
    · subst empty
      exact ⟨pt, isLow_single pt⟩
    · obtain ⟨low, isLow⟩ := ih empty
      exact ⟨_, isLow.append pt⟩

/-- The point lies in the dip, with these before it and those after it. -/
def InDip (value : P → K) (done : List P) (pt : P) (later : List P) (dip : Dip P) : Prop :=
  ∃ before below below' rest, done = before ++ dip.top :: below ∧ later = below' ++ rest ∧
    IsTop value before dip.top (below ++ pt :: below') ∧ IsLow value (below ++ pt :: below') dip.low ∧
    rest.head? = dip.back ∧ ∀ back ∈ dip.back, value dip.top ≤ value back

namespace InDip

variable {done later : List P} {pt : P} {dip : Dip P} (inDip : InDip value done pt later dip)
include inDip

theorem isDip : IsDip value (done ++ pt :: later) dip := by
  obtain ⟨before, below, below', rest, rfl, rfl, isTop, isLow, head, reached⟩ := inDip
  exact ⟨before, below ++ pt :: below', rest, by simp, isTop, isLow, head, reached⟩

theorem top_mem : dip.top ∈ done := by
  obtain ⟨before, below, below', rest, rfl, -⟩ := inDip
  simp

theorem highest {u : P} (member : u ∈ done ++ [pt]) : value u ≤ value dip.top := by
  obtain ⟨before, below, below', rest, rfl, -, isTop, -⟩ := inDip
  rcases List.mem_append.mp member with former | last
  · rcases List.mem_append.mp former with earlier | own
    · exact isTop.highest u earlier
    · rcases List.mem_cons.mp own with rfl | inside
      · exact le_rfl
      · exact (isTop.below u (by simp [inside])).le
  · rw [List.mem_singleton.mp last]
    exact (isTop.below pt (by simp)).le

theorem lt_top : value pt < value dip.top := by
  obtain ⟨before, below, below', rest, -, -, isTop, -⟩ := inDip
  exact isTop.below pt (by simp)

theorem low_le : value dip.low ≤ value pt := by
  obtain ⟨before, below, below', rest, -, -, -, isLow, -⟩ := inDip
  exact isLow.le (by simp)

end InDip

/-- A point that is below an earlier one lies in a dip. -/
theorem exists_inDip {done : List P} {pt higher : P} (later : List P) (earlier : higher ∈ done)
    (under : value pt < value higher) : ∃ dip, InDip value done pt later dip := by
  obtain ⟨before, top, below, rfl, isTop⟩ : ∃ before top below, done = before ++ top :: below ∧
      IsTop value before top below := exists_top (List.ne_nil_of_mem earlier)
  have ptBelow : value pt < value top := by
    apply under.trans_le
    rcases List.mem_append.mp earlier with former | own
    · exact isTop.highest higher former
    · rcases List.mem_cons.mp own with rfl | inside
      · exact le_rfl
      · exact (isTop.below higher inside).le
  -- the points up to the first that is not below the top
  let isBelow : P → Bool := fun u => value u < value top
  have allBelow : ∀ u ∈ below ++ pt :: later.takeWhile isBelow, value u < value top := by
    intro u member
    rcases List.mem_append.mp member with inside | own
    · exact isTop.below u inside
    · rcases List.mem_cons.mp own with rfl | following
      · exact ptBelow
      · have passed : isBelow u = true := List.mem_takeWhile_imp following
        exact of_decide_eq_true passed
  obtain ⟨low, isLow⟩ : ∃ low, IsLow value (below ++ pt :: later.takeWhile isBelow) low := exists_low (by simp)
  refine ⟨⟨top, low, (later.dropWhile isBelow).head?⟩, before, below, later.takeWhile isBelow,
    later.dropWhile isBelow, rfl, List.takeWhile_append_dropWhile.symm, ⟨isTop.highest, allBelow⟩, isLow, rfl, ?_⟩
  intro back found
  have stopped := List.head?_dropWhile_not isBelow later
  have first : (later.dropWhile isBelow).head? = some back := found
  rw [first] at stopped
  exact not_lt.mp (of_decide_eq_false stopped)

/-- Of a series with one more point, the dips that are over are those of the series and, where the point is
back at the top, the one that was open. -/
theorem isDip_append_iff {before below : List P} {top : P} (isTop : IsTop value before top below) (pt : P)
    {dip : Dip P} {back : P} (recovered : dip.back = some back) :
    IsDip value (before ++ top :: below ++ [pt]) dip ↔ IsDip value (before ++ top :: below) dip ∨
      value top ≤ value pt ∧ dip.top = top ∧ IsLow value below dip.low ∧ back = pt := by
  constructor
  · rintro ⟨before', below', rest, split, isTop', isLow, head, reached⟩
    obtain ⟨more, rfl⟩ : ∃ more, rest = back :: more := by
      rw [recovered] at head
      exact ⟨rest.tail, (List.cons_head?_tail (Option.mem_def.mpr head)).symm⟩
    rcases List.eq_nil_or_concat more with rfl | ⟨more, last, rfl⟩
    · -- the point ends the dip
      have parts : before ++ top :: below = before' ++ dip.top :: below' ∧ [pt] = [back] :=
        List.append_inj' (by rw [split]; simp) rfl
      obtain ⟨-, equal, equal'⟩ := isTop.unique isTop' parts.1
      have same : back = pt := (List.cons.inj parts.2).1.symm
      subst same
      rw [equal, equal']
      exact .inr ⟨reached back (by simp [recovered]), rfl, isLow, rfl⟩
    · have parts : before ++ top :: below = before' ++ dip.top :: (below' ++ back :: more) ∧ [pt] = [last] :=
        List.append_inj' (by rw [split]; simp) rfl
      exact .inl ⟨before', below', back :: more, parts.1, isTop', isLow, recovered.symm, reached⟩
  · rintro (⟨before', below', rest, split, isTop', isLow, head, reached⟩ | ⟨reached, own, isLow, rfl⟩)
    · refine ⟨before', below', rest ++ [pt], by simp [split], isTop', isLow, ?_, reached⟩
      rw [List.head?_append, head, recovered]
      rfl
    · subst own
      refine ⟨before, below, [back], by simp, isTop, isLow, recovered.symm, ?_⟩
      intro u member
      rw [recovered] at member
      rwa [← Option.some.inj member]

/-- The dip that is not over is the one below the last of the highest points. -/
theorem isDip_open_iff {before below : List P} {top : P} (isTop : IsTop value before top below) {dip : Dip P}
    (isOpen : dip.back = none) :
    IsDip value (before ++ top :: below) dip ↔ dip.top = top ∧ IsLow value below dip.low := by
  constructor
  · rintro ⟨before', below', rest, split, isTop', isLow, head, -⟩
    rw [isOpen, List.head?_eq_none_iff] at head
    subst head
    rw [List.append_nil] at split
    obtain ⟨-, equal, equal'⟩ := isTop.unique isTop' split
    rw [equal, equal']
    exact ⟨rfl, isLow⟩
  · rintro ⟨rfl, isLow⟩
    exact ⟨before, below, [], by simp, isTop, isLow, isOpen.symm, by simp [isOpen]⟩

end Dips

end MiniHedge.Library
