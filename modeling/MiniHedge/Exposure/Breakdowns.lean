import MiniHedge.Exposure.Calculator
import MiniHedge.Library.Groups
import Mathlib.Algebra.BigOperators.Ring.List
import Mathlib.Algebra.Order.BigOperators.Group.List
import Mathlib.Algebra.Order.Field.Basic

/-! The breakdowns of an exposure, and the drilldowns of their keys.

The totals, the breakdowns and the drilldowns are made by loops of their own.
Each comes to a sum of one of four measures of the exposures: over all positions,
over those with a key, or of one position. The sums are exact where the context has
no need to round them; the weights are quotients, and those are rounded.
-/

set_option autoImplicit false

namespace MiniHedge.Exposure

open MiniHedge.Python MiniHedge.Library

/-! ## The measures -/

inductive Measure where
  | long
  | short
  | net
  | gross
  deriving DecidableEq, Repr

namespace Measure

/-- What one exposure counts. -/
def of : Measure → Decimal → Decimal
  | long, exposure => if 0 < exposure then exposure else 0
  | short, exposure => if exposure < 0 then exposure else 0
  | net, exposure => exposure
  | gross, exposure => |exposure|

theorem of_zero (m : Measure) : m.of 0 = 0 := by
  cases m <;> simp [of]

theorem short_nonpos (exposure : Decimal) : short.of exposure ≤ 0 := by
  by_cases below : exposure < 0
  · simpa [of, below] using below.le
  · simp [of, below]

theorem net_eq (exposure : Decimal) : net.of exposure = long.of exposure + short.of exposure := by
  rcases lt_trichotomy exposure 0 with below | rfl | above
  · simp [of, below, lt_asymm below]
  · simp [of]
  · simp [of, above, lt_asymm above]

theorem gross_eq (exposure : Decimal) : gross.of exposure = long.of exposure - short.of exposure := by
  rcases lt_trichotomy exposure 0 with below | rfl | above
  · simp [of, below, lt_asymm below, abs_of_neg below]
  · simp [of]
  · simp [of, above, lt_asymm above, abs_of_pos above]

theorem abs_le (m : Measure) (exposure : Decimal) : |m.of exposure| ≤ |exposure| := by
  cases m with
  | long => by_cases above : 0 < exposure <;> simp [of, above]
  | short => by_cases below : exposure < 0 <;> simp [of, below]
  | net => exact le_rfl
  | gross => exact (abs_abs exposure).le

end Measure

/-- The sum of a measure. -/
def measured (normalizers : Normalizers) (positions : List PositionValue) (m : Measure) : Decimal :=
  (positions.map fun pv => m.of (exposureOf normalizers pv)).sum

theorem measured_abs_le (normalizers : Normalizers) (positions : List PositionValue) (m : Measure) :
    |measured normalizers positions m| ≤ measured normalizers positions .gross := by
  unfold measured
  induction positions with
  | nil => simp
  | cons pv rest ih =>
    rw [List.map_cons, List.map_cons, List.sum_cons, List.sum_cons]
    exact (abs_add_le _ _).trans (add_le_add (Measure.abs_le m _) ih)

theorem measured_gross_sublist (normalizers : Normalizers) {part positions : List PositionValue}
    (sublist : part.Sublist positions) :
    measured normalizers part .gross ≤ measured normalizers positions .gross := by
  apply (sublist.map _).sum_le_sum
  intro amount member
  obtain ⟨pv, -, rfl⟩ := List.mem_map.mp member
  exact abs_nonneg _

section Measured

variable (normalizers : Normalizers) (positions : List PositionValue)

theorem measured_short_nonpos : measured normalizers positions .short ≤ 0 := by
  unfold measured
  induction positions with
  | nil => exact le_rfl
  | cons pv rest ih =>
    rw [List.map_cons, List.sum_cons]
    exact add_nonpos (Measure.short_nonpos _) ih

theorem measured_net : measured normalizers positions .net =
    measured normalizers positions .long + measured normalizers positions .short := by
  simp only [measured, Measure.net_eq, List.sum_map_add]

theorem measured_gross : measured normalizers positions .gross =
    measured normalizers positions .long + |measured normalizers positions .short| := by
  rw [abs_of_nonpos (measured_short_nonpos normalizers positions), ← sub_eq_add_neg]
  unfold measured
  induction positions with
  | nil => simp
  | cons pv rest ih =>
    simp only [List.map_cons, List.sum_cons, Measure.gross_eq] at ih ⊢
    rw [ih]
    ring

theorem measured_gross_nonneg : 0 ≤ measured normalizers positions .gross :=
  (abs_nonneg _).trans (measured_abs_le normalizers positions .net)

/-- What is exposed makes the gross exposure positive. -/
theorem measured_gross_pos {pv : PositionValue} (member : pv ∈ positions)
    (exposed : exposureOf normalizers pv ≠ 0) : 0 < measured normalizers positions .gross := by
  have part : |exposureOf normalizers pv| ≤ measured normalizers positions .gross := by
    apply List.single_le_sum
    · intro amount inside
      obtain ⟨other, -, rfl⟩ := List.mem_map.mp inside
      exact abs_nonneg _
    · exact List.mem_map.mpr ⟨pv, member, rfl⟩
  exact (abs_pos.mpr exposed).trans_le part

end Measured

theorem measured_concat (normalizers : Normalizers) (positions : List PositionValue) (pv : PositionValue)
    (m : Measure) : measured normalizers (positions ++ [pv]) m =
      measured normalizers positions m + m.of (exposureOf normalizers pv) := by
  simp [measured]

/-- The positions with a key. -/
def matching (dim : ExposureDimension) (key : String) (positions : List PositionValue) : List PositionValue :=
  positions.filter fun pv => getDimensionKey dim pv = key

/-- Whatever part of the positions is summed, the context does not round the sum. -/
def AddsUp (ctx : Context) (normalizers : Normalizers) (positions : List PositionValue) : Prop :=
  ∀ part : List PositionValue, part.Sublist positions → ∀ m,
    ctx.round (measured normalizers part m) = measured normalizers part m

namespace AddsUp

theorem exact (normalizers : Normalizers) (positions : List PositionValue) :
    AddsUp .exact normalizers positions := fun _ _ _ => rfl

variable {ctx : Context} {normalizers : Normalizers} {positions : List PositionValue}

theorem whole (adds : AddsUp ctx normalizers positions) (m : Measure) :
    ctx.round (measured normalizers positions m) = measured normalizers positions m :=
  adds positions (List.Sublist.refl positions) m

theorem part {part : List PositionValue} (adds : AddsUp ctx normalizers positions)
    (sublist : part.Sublist positions) : AddsUp ctx normalizers part :=
  fun other inside => adds other (inside.trans sublist)

theorem matching (adds : AddsUp ctx normalizers positions) (dim : ExposureDimension) (key : String) :
    AddsUp ctx normalizers (matching dim key positions) :=
  adds.part List.filter_sublist

/-- Of what is added next, too. -/
theorem concat {pv : PositionValue} (adds : AddsUp ctx normalizers (positions ++ [pv])) (m : Measure) :
    ctx.add (measured normalizers positions m) (m.of (exposureOf normalizers pv)) =
      measured normalizers (positions ++ [pv]) m := by
  have whole := adds.whole m
  rwa [measured_concat] at whole ⊢

theorem init {pv : PositionValue} (adds : AddsUp ctx normalizers (positions ++ [pv])) :
    AddsUp ctx normalizers positions :=
  adds.part (List.sublist_append_left positions [pv])

theorem abs (adds : AddsUp ctx normalizers positions) {pv : PositionValue} (member : pv ∈ positions) :
    ctx.abs (exposureOf normalizers pv) = |exposureOf normalizers pv| := by
  have alone := adds [pv] (List.singleton_sublist.mpr member) .gross
  rwa [measured, List.map_singleton, List.sum_singleton] at alone

/-- What the long and the short side come to. -/
theorem net (adds : AddsUp ctx normalizers positions) :
    ctx.add (measured normalizers positions .long) (measured normalizers positions .short) =
      measured normalizers positions .net := by
  rw [Context.add, ← measured_net, adds.whole]

theorem gross (adds : AddsUp ctx normalizers positions) :
    ctx.add (measured normalizers positions .long) (ctx.abs (measured normalizers positions .short)) =
      measured normalizers positions .gross := by
  have side : ctx.abs (measured normalizers positions .short) = |measured normalizers positions .short| := by
    -- the short side in absolute terms is the gross exposure of the short positions
    have shorts := adds.part (List.filter_sublist (p := fun pv => exposureOf normalizers pv < 0))
    have same : |measured normalizers positions .short| =
        measured normalizers (positions.filter fun pv => exposureOf normalizers pv < 0) .gross := by
      rw [abs_of_nonpos (measured_short_nonpos normalizers positions)]
      unfold measured
      clear adds shorts
      induction positions with
      | nil => simp
      | cons pv rest ih =>
        rw [List.map_cons, List.sum_cons, List.filter_cons, neg_add, ih]
        by_cases below : exposureOf normalizers pv < 0
        · simp [Measure.of, below, abs_of_neg below]
        · simp [Measure.of, below]
    rw [Context.abs, same, shorts.whole]
  rw [side, Context.add, ← measured_gross, adds.whole]

end AddsUp

/-- Multiples of a unit that come to no more than 28 digits of it. -/
theorem addsUp_of_units {normalizers : Normalizers} {positions : List PositionValue} {e : ℤ}
    (units : ∀ pv ∈ positions, ∃ n : ℤ, exposureOf normalizers pv = n * 10 ^ e)
    (digits : measured normalizers positions .gross ≤ 10 ^ 28 * 10 ^ e) :
    AddsUp .default normalizers positions := by
  intro part sublist m
  apply Fits.significant_eq
  have unit : (0 : ℚ) < 10 ^ e := zpow_pos (by norm_num) e
  have whole : ∃ n : ℤ, measured normalizers part m = n * 10 ^ e := by
    have each : ∀ pv ∈ part, ∃ n : ℤ, m.of (exposureOf normalizers pv) = n * 10 ^ e := by
      intro pv member
      obtain ⟨n, own⟩ := units pv (sublist.subset member)
      rw [own]
      cases m with
      | long =>
        by_cases above : 0 < (n : ℚ) * 10 ^ e
        · exact ⟨n, by simp [Measure.of, above]⟩
        · exact ⟨0, by simp [Measure.of, above]⟩
      | short =>
        by_cases below : (n : ℚ) * 10 ^ e < 0
        · exact ⟨n, by simp [Measure.of, below]⟩
        · exact ⟨0, by simp [Measure.of, below]⟩
      | net => exact ⟨n, rfl⟩
      | gross => exact ⟨|n|, by simp [Measure.of, abs_mul, abs_of_pos unit]⟩
    clear sublist
    unfold measured
    induction part with
    | nil => exact ⟨0, by simp⟩
    | cons pv rest ih =>
      obtain ⟨first, own⟩ := each pv List.mem_cons_self
      obtain ⟨later, others⟩ := ih fun other member => each other (List.mem_cons_of_mem _ member)
      exact ⟨first + later, by rw [List.map_cons, List.sum_cons, own, others]; push_cast; ring⟩
  have bounded : |measured normalizers part m| ≤ 10 ^ 28 * 10 ^ e :=
    ((measured_abs_le normalizers part m).trans (measured_gross_sublist normalizers sublist)).trans digits
  obtain ⟨n, own⟩ := whole
  refine ⟨n, e, ?_, own⟩
  rw [own, abs_mul, abs_of_pos unit] at bounded
  exact_mod_cast le_of_mul_le_mul_right bounded unit

/-! ## The loops -/

def longOnes (normalizers : Normalizers) (positions : List PositionValue) : List PositionValue :=
  positions.filter fun pv => 0 < exposureOf normalizers pv

def shortOnes (normalizers : Normalizers) (positions : List PositionValue) : List PositionValue :=
  positions.filter fun pv => exposureOf normalizers pv < 0

section Loops

variable {ctx : Context} {normalizers : Normalizers} {positions : List PositionValue}

theorem count_sides {t : Totals} (long : ctx.round t.longTotal = t.longTotal)
    (short : ctx.round t.shortTotal = t.shortTotal) (exposure : Decimal) :
    (t.count ctx exposure).longTotal = ctx.add t.longTotal (Measure.long.of exposure) ∧
      (t.count ctx exposure).shortTotal = ctx.add t.shortTotal (Measure.short.of exposure) := by
  rcases lt_trichotomy exposure 0 with below | rfl | above
  · simp [Totals.count, Measure.of, Context.add, below, lt_asymm below, long]
  · simp [Totals.count, Measure.of, Context.add, long, short]
  · simp [Totals.count, Measure.of, Context.add, above, lt_asymm above, short]

/-- The totals after the positions. -/
theorem foldl_count (adds : AddsUp ctx normalizers positions) :
    let last := positions.foldl (fun t pv => t.count ctx (exposureOf normalizers pv)) ({} : Totals)
    last.longTotal = measured normalizers positions .long ∧
      last.shortTotal = measured normalizers positions .short := by
  induction positions using List.reverseRecOn with
  | nil => exact ⟨rfl, rfl⟩
  | append_singleton rest pv ih =>
    have sofar := adds.init
    obtain ⟨longs, shorts⟩ := ih sofar
    have next := count_sides (by rw [longs, sofar.whole]) (by rw [shorts, sofar.whole]) (exposureOf normalizers pv)
    rw [longs, shorts, adds.concat, adds.concat] at next
    rw [List.foldl_concat]
    exact next

theorem measured_longOnes (dim : ExposureDimension) (key : String) :
    totalOf (getDimensionKey dim) (exposureOf normalizers) key (longOnes normalizers positions) =
      measured normalizers (matching dim key positions) .long := by
  rw [longOnes, totalOf_filter]
  simp only [decide_eq_true_eq]
  rfl

theorem measured_shortOnes (dim : ExposureDimension) (key : String) :
    totalOf (getDimensionKey dim) (exposureOf normalizers) key (shortOnes normalizers positions) =
      measured normalizers (matching dim key positions) .short := by
  rw [shortOnes, totalOf_filter]
  simp only [decide_eq_true_eq]
  rfl

theorem totals_concat {α : Type} (key : α → String) (amount : α → Decimal) (xs : List α) (x : α) :
    totals key amount (xs ++ [x]) =
      setItem (key x) (totalOf key amount (key x) xs + amount x) (totals key amount xs) := by
  rw [← getD_lookup_totals, totals, List.foldl_concat]
  rfl

/-- The two dictionaries are the totals of the long and of the short positions. -/
theorem sidesBy_eq (adds : AddsUp ctx normalizers positions) (dim : ExposureDimension) :
    sidesBy ctx normalizers positions dim =
      ⟨totals (getDimensionKey dim) (exposureOf normalizers) (longOnes normalizers positions),
        totals (getDimensionKey dim) (exposureOf normalizers) (shortOnes normalizers positions)⟩ := by
  induction positions using List.reverseRecOn with
  | nil => rfl
  | append_singleton rest pv ih =>
    have own : matching dim (getDimensionKey dim pv) (rest ++ [pv]) =
        matching dim (getDimensionKey dim pv) rest ++ [pv] := by
      simp [matching]
    have next := fun m => (own ▸ adds.matching dim (getDimensionKey dim pv)).concat m
    unfold sidesBy at ih ⊢
    rw [List.foldl_concat, ih adds.init]
    rcases lt_trichotomy (exposureOf normalizers pv) 0 with below | zero | above
    · have longs : longOnes normalizers (rest ++ [pv]) = longOnes normalizers rest := by
        simp [longOnes, lt_asymm below]
      have shorts : shortOnes normalizers (rest ++ [pv]) = shortOnes normalizers rest ++ [pv] := by
        simp [shortOnes, below]
      rw [Sides.count, if_neg (lt_asymm below), if_pos below, longs, shorts, totals_concat,
        getD_lookup_totals, measured_shortOnes]
      have added := next .short
      rw [measured_concat, Measure.of, if_pos below] at added
      rw [added]
    · simp [Sides.count, longOnes, shortOnes, zero]
    · have longs : longOnes normalizers (rest ++ [pv]) = longOnes normalizers rest ++ [pv] := by
        simp [longOnes, above]
      have shorts : shortOnes normalizers (rest ++ [pv]) = shortOnes normalizers rest := by
        simp [shortOnes, lt_asymm above]
      rw [Sides.count, if_pos above, longs, shorts, totals_concat, getD_lookup_totals, measured_longOnes]
      have added := next .long
      rw [measured_concat, Measure.of, if_pos above] at added
      rw [added]

/-- What the dictionaries have under a key. -/
theorem sidesBy_lookup (adds : AddsUp ctx normalizers positions) (dim : ExposureDimension) (key : String) :
    ((sidesBy ctx normalizers positions dim).longs.lookup key).getD 0 =
        measured normalizers (matching dim key positions) .long ∧
      ((sidesBy ctx normalizers positions dim).shorts.lookup key).getD 0 =
        measured normalizers (matching dim key positions) .short := by
  rw [sidesBy_eq adds, getD_lookup_totals, getD_lookup_totals, measured_longOnes, measured_shortOnes]
  exact ⟨rfl, rfl⟩

/-- The keys are those of the positions that are exposed. -/
theorem mem_allKeys (adds : AddsUp ctx normalizers positions) (dim : ExposureDimension) (key : String) :
    key ∈ (sidesBy ctx normalizers positions dim).allKeys ↔
      ∃ pv ∈ positions, getDimensionKey dim pv = key ∧ exposureOf normalizers pv ≠ 0 := by
  unfold Sides.allKeys
  rw [sidesBy_eq adds, List.mem_eraseDups, List.mem_append, mem_keys_totals, mem_keys_totals]
  simp only [longOnes, shortOnes, List.mem_map, List.mem_filter, decide_eq_true_eq]
  constructor
  · rintro (⟨pv, ⟨member, above⟩, own⟩ | ⟨pv, ⟨member, below⟩, own⟩)
    · exact ⟨pv, member, own, above.ne'⟩
    · exact ⟨pv, member, own, below.ne⟩
  · rintro ⟨pv, member, own, exposed⟩
    rcases exposed.lt_or_gt with below | above
    · exact .inr ⟨pv, ⟨member, below⟩, own⟩
    · exact .inl ⟨pv, ⟨member, above⟩, own⟩

end Loops

/-! ## The parts and the items -/

def PortfolioExposure.value (whole : PortfolioExposure) : Measure → Decimal
  | .long => whole.longExposure
  | .short => whole.shortExposure
  | .net => whole.netExposure
  | .gross => whole.grossExposure

def ExposureBreakdown.value (part : ExposureBreakdown) : Measure → Decimal
  | .long => part.longValue
  | .short => part.shortValue
  | .net => part.netValue
  | .gross => part.grossValue

def DrilldownItem.value (item : DrilldownItem) : Measure → Decimal
  | .long => item.longValue
  | .short => item.shortValue
  | .net => item.netValue
  | .gross => item.grossValue

/-- The breakdown in a dimension; a dimension without one is left out. -/
def PortfolioExposure.breakdown (whole : PortfolioExposure) (dim : ExposureDimension) :
    List ExposureBreakdown :=
  (whole.breakdowns.lookup dim.value).getD []

/-- A dictionary that leaves out what is empty. -/
theorem lookup_nonempty {α β : Type} {value : α → String} (injective : Function.Injective value)
    (f : α → List β) {ds : List α} {d : α} (member : d ∈ ds) :
    ((ds.filterMap fun d => if (f d).isEmpty then none else some (value d, f d)).lookup
      (value d)).getD [] = f d := by
  cases found : (ds.filterMap fun d =>
      if (f d).isEmpty then none else some (value d, f d)).lookup (value d) with
  | some bd =>
    obtain ⟨earlier, later, split, -⟩ := List.lookup_eq_some_iff.mp found
    have inside : (value d, bd) ∈ ds.filterMap fun d =>
        if (f d).isEmpty then none else some (value d, f d) := by
      rw [split]
      exact List.mem_append_right _ List.mem_cons_self
    obtain ⟨other, -, written⟩ := List.mem_filterMap.mp inside
    split at written
    · cases written
    · obtain ⟨same, rfl⟩ := Prod.mk.inj (Option.some.inj written)
      rw [injective same]
      rfl
  | none =>
    by_contra filled
    have written : (value d, f d) ∈ ds.filterMap fun d =>
        if (f d).isEmpty then none else some (value d, f d) := by
      refine List.mem_filterMap.mpr ⟨d, member, if_neg fun empty => ?_⟩
      exact filled (List.isEmpty_iff.mp empty).symm
    simpa using List.lookup_eq_none_iff.mp found _ written

/-! ## Weights -/

/-- Weights that sum to 100 up to what rounding the quotients changes, and exactly where
no quotient has to be rounded. -/
def Hundred {α : Type} (weight gross : α → Decimal) (xs : List α) : Prop :=
  |(xs.map weight).sum - 100| ≤ 5 / 10 ^ 26 ∧
    ((∀ x ∈ xs, Fits (gross x / (xs.map gross).sum)) → (xs.map weight).sum = 100)

theorem sum_near {α : Type} {c : Decimal} {f g : α → Decimal} {xs : List α}
    (near : ∀ x ∈ xs, |f x - g x| ≤ c * g x) : |(xs.map f).sum - (xs.map g).sum| ≤ c * (xs.map g).sum := by
  induction xs with
  | nil => simp
  | cons x rest ih =>
    rw [List.map_cons, List.sum_cons, List.map_cons, List.sum_cons, mul_add, add_sub_add_comm]
    exact (abs_add_le _ _).trans (add_le_add (near x List.mem_cons_self)
      (ih fun other member => near other (List.mem_cons_of_mem x member)))

/-- The product has the digits of the quotient. -/
theorem weightOf_default {grossTotal : Decimal} (nonzero : grossTotal ≠ 0) (gross : Decimal) :
    weightOf .default gross grossTotal = 100 * significant (gross / grossTotal) := by
  have shifted := (fits_significant (gross / grossTotal)).shift 2
  rw [show (10 : ℚ) ^ (2 : ℤ) = 100 by norm_num] at shifted
  rw [weightOf, if_pos nonzero, mul_comm]
  exact shifted.significant_eq

theorem hundred_of_weighed {α : Type} {weight gross : α → Decimal} {xs : List α} {grossTotal : Decimal}
    (weighed : ∀ x ∈ xs, weight x = weightOf .default (gross x) grossTotal)
    (nonneg : ∀ x ∈ xs, 0 ≤ gross x) (whole : (xs.map gross).sum = grossTotal) (positive : 0 < grossTotal) :
    Hundred weight gross xs := by
  have sum : (xs.map weight).sum = 100 * (xs.map fun x => significant (gross x / grossTotal)).sum := by
    rw [← List.sum_map_mul_left]
    refine congrArg List.sum (List.map_congr_left fun x member => ?_)
    rw [weighed x member, weightOf_default positive.ne']
  have one : (xs.map fun x => gross x / grossTotal).sum = 1 := by
    simp only [div_eq_mul_inv]
    rw [List.sum_map_mul_right, whole, mul_inv_cancel₀ positive.ne']
  constructor
  · have each : ∀ x ∈ xs, _ := fun x member => significant_share (div_nonneg (nonneg x member) positive.le)
    have near := sum_near each
    rw [one] at near
    rw [sum, show (100 : ℚ) * (xs.map fun x => significant (gross x / grossTotal)).sum - 100 =
      100 * ((xs.map fun x => significant (gross x / grossTotal)).sum - 1) by ring, abs_mul]
    rw [show |(100 : ℚ)| = 100 by norm_num]
    linarith only [near]
  · intro fits
    rw [whole] at fits
    rw [sum, List.map_congr_left fun x member => (fits x member).significant_eq, one, mul_one]

section Parts

variable {ctx : Context} {normalizers : Normalizers} {positions : List PositionValue}
  (adds : AddsUp ctx normalizers positions) (dim : ExposureDimension)

include adds

theorem whole_value (portfolioId : UUID) (m : Measure) :
    (calculateExposure ctx normalizers positions portfolioId).value m =
      measured normalizers positions m := by
  obtain ⟨longs, shorts⟩ := foldl_count adds
  cases m with
  | long => exact longs
  | short => exact shorts
  | net => exact (congrArg₂ ctx.add longs shorts).trans adds.net
  | gross => exact (congrArg₂ (fun long short => ctx.add long (ctx.abs short)) longs shorts).trans adds.gross

/-- A part is what is measured of the positions with its key. -/
theorem part_value {grossTotal : Decimal} {part : ExposureBreakdown}
    (member : part ∈ breakdownByDimension ctx normalizers positions dim grossTotal) (m : Measure) :
    part.value m = measured normalizers (matching dim part.key positions) m := by
  obtain ⟨key, -, rfl⟩ := List.mem_map.mp member
  obtain ⟨longs, shorts⟩ := sidesBy_lookup adds dim key
  have own := adds.matching dim key
  cases m with
  | long => exact longs
  | short => exact shorts
  | net => exact (congrArg₂ ctx.add longs shorts).trans own.net
  | gross => exact (congrArg₂ (fun long short => ctx.add long (ctx.abs short)) longs shorts).trans own.gross

omit adds in
theorem part_weight {grossTotal : Decimal} {part : ExposureBreakdown}
    (member : part ∈ breakdownByDimension ctx normalizers positions dim grossTotal) :
    part.weightPct = weightOf ctx part.grossValue grossTotal := by
  obtain ⟨key, -, rfl⟩ := List.mem_map.mp member
  rfl

omit adds in
theorem parts_keys (grossTotal : Decimal) :
    (breakdownByDimension ctx normalizers positions dim grossTotal).map (·.key) =
      sortOn id (sidesBy ctx normalizers positions dim).allKeys := by
  unfold breakdownByDimension
  rw [List.map_map]
  exact List.map_id _

omit adds in
theorem parts_distinct (grossTotal : Decimal) :
    ((breakdownByDimension ctx normalizers positions dim grossTotal).map (·.key)).Nodup := by
  rw [parts_keys, (sortOn_perm _ _).nodup_iff]
  exact nodup_eraseDups _

theorem mem_parts_keys (grossTotal : Decimal) (key : String) :
    key ∈ (breakdownByDimension ctx normalizers positions dim grossTotal).map (·.key) ↔
      ∃ pv ∈ positions, getDimensionKey dim pv = key ∧ exposureOf normalizers pv ≠ 0 := by
  rw [parts_keys, mem_sortOn, mem_allKeys adds]

/-- The parts sum to the whole: what has none of the keys is not exposed. -/
theorem parts_sum (grossTotal : Decimal) (m : Measure) :
    ((breakdownByDimension ctx normalizers positions dim grossTotal).map (·.value m)).sum =
      measured normalizers positions m := by
  have values : (breakdownByDimension ctx normalizers positions dim grossTotal).map (·.value m) =
      ((breakdownByDimension ctx normalizers positions dim grossTotal).map (·.key)).map fun key =>
        totalOf (getDimensionKey dim) (fun pv => m.of (exposureOf normalizers pv)) key positions := by
    rw [List.map_map]
    apply List.map_congr_left
    intro part member
    exact part_value adds dim member m
  rw [values]
  apply sum_totalOf_support _ _ (parts_distinct dim grossTotal)
  intro pv member counts
  rw [mem_parts_keys adds]
  refine ⟨pv, member, rfl, fun unexposed => counts ?_⟩
  rw [unexposed, Measure.of_zero]

theorem breakdown_eq (portfolioId : UUID) :
    (calculateExposure ctx normalizers positions portfolioId).breakdown dim =
      breakdownByDimension ctx normalizers positions dim (measured normalizers positions .gross) := by
  have injective : Function.Injective ExposureDimension.value := by
    intro a b same
    cases a <;> cases b <;> first | rfl | exact absurd same (by decide)
  have member : dim ∈ ExposureDimension.all := by cases dim <;> decide
  rw [← whole_value adds portfolioId .gross]
  exact lookup_nonempty injective (fun dim => breakdownByDimension ctx normalizers positions dim _) member

end Parts

section Items

variable {ctx : Context} {normalizers : Normalizers} {positions : List PositionValue}
  (adds : AddsUp ctx normalizers positions) (dim : ExposureDimension) (key : String)

include adds

theorem items_total :
    (matching dim key positions).foldl (fun total p => ctx.add total (ctx.abs (exposureOf normalizers p))) 0 =
      measured normalizers (matching dim key positions) .gross := by
  have own := adds.matching dim key
  generalize matching dim key positions = part at own
  induction part using List.reverseRecOn with
  | nil => rfl
  | append_singleton rest pv ih =>
    rw [List.foldl_concat, ih own.init, own.abs (List.mem_append_right rest List.mem_cons_self)]
    exact own.concat .gross

/-- There is an item for each of the positions with the key. -/
theorem items_held (m : Measure) :
    ((calculateDrilldown ctx normalizers positions dim key).items.map fun i => (i.instrumentId, i.value m)).Perm
      ((matching dim key positions).map fun pv => (pv.instrumentId, m.of (exposureOf normalizers pv))) := by
  unfold calculateDrilldown
  refine ((sortOn_perm _ _).map _).trans (List.Perm.of_eq ?_)
  rw [List.map_map]
  apply List.map_congr_left
  intro pv member
  have whole := (adds.matching dim key).abs member
  cases m with
  | gross => exact congrArg (Prod.mk pv.instrumentId) whole
  | long | short | net => rfl

theorem items_sum (m : Measure) :
    ((calculateDrilldown ctx normalizers positions dim key).items.map (·.value m)).sum =
      measured normalizers (matching dim key positions) m := by
  have values := ((items_held adds dim key m).map Prod.snd).sum_eq
  rwa [List.map_map, List.map_map] at values

theorem items_weight : ∀ item ∈ (calculateDrilldown ctx normalizers positions dim key).items,
    0 ≤ item.grossValue ∧ item.weightPct = weightOf ctx item.grossValue
      (measured normalizers (matching dim key positions) .gross) := by
  intro item member
  rw [calculateDrilldown, mem_sortOn] at member
  obtain ⟨pv, inside, rfl⟩ := List.mem_map.mp member
  refine ⟨?_, ?_⟩
  · exact (abs_nonneg _).trans_eq ((adds.matching dim key).abs inside).symm
  · rw [← items_total adds dim key]
    rfl

end Items

/-! ## The partition -/

/-- A whole is what the positions come to, its parts are what those with a key come to, and
the items of a part are those positions. -/
structure Partitioned (normalizers : Normalizers) (positions : List PositionValue) (dim : ExposureDimension)
    (whole : PortfolioExposure) (parts : List ExposureBreakdown) (items : String → List DrilldownItem) : Prop where
  total : ∀ m, whole.value m = measured normalizers positions m
  distinct : (parts.map (·.key)).Nodup
  keys : ∀ key, key ∈ parts.map (·.key) ↔
    ∃ pv ∈ positions, getDimensionKey dim pv = key ∧ exposureOf normalizers pv ≠ 0
  values : ∀ part ∈ parts, ∀ m, part.value m = measured normalizers (matching dim part.key positions) m
  sums : ∀ m, (parts.map (·.value m)).sum = whole.value m
  weights : 0 < whole.grossExposure → Hundred (·.weightPct) (·.grossValue) parts
  held : ∀ key m, ((items key).map fun i => (i.instrumentId, i.value m)).Perm
    ((matching dim key positions).map fun pv => (pv.instrumentId, m.of (exposureOf normalizers pv)))
  itemSums : ∀ part ∈ parts, ∀ m, ((items part.key).map (·.value m)).sum = part.value m
  itemWeights : ∀ part ∈ parts, Hundred (·.weightPct) (·.grossValue) (items part.key)

theorem breakdown_partitioned {normalizers : Normalizers} {positions : List PositionValue}
    (adds : AddsUp .default normalizers positions) (portfolioId : UUID) (dim : ExposureDimension) :
    Partitioned normalizers positions dim (calculateExposure .default normalizers positions portfolioId)
      ((calculateExposure .default normalizers positions portfolioId).breakdown dim)
      (fun key => (calculateDrilldown .default normalizers positions dim key).items) := by
  have gross := whole_value adds portfolioId .gross
  rw [breakdown_eq adds]
  constructor
  case total => exact whole_value adds portfolioId
  case distinct => exact parts_distinct dim _
  case keys => exact mem_parts_keys adds dim _
  case values =>
    intro part member m
    exact part_value adds dim member m
  case sums =>
    intro m
    rw [parts_sum adds, whole_value adds]
  case weights =>
    intro positive
    refine hundred_of_weighed (fun part member => part_weight dim member) ?_
      (parts_sum adds dim _ .gross) (gross ▸ positive)
    intro part member
    exact (measured_gross_nonneg normalizers _).trans_eq (part_value adds dim member .gross).symm
  case held => exact items_held adds dim
  case itemSums =>
    intro part member m
    rw [items_sum adds, part_value adds dim member]
  case itemWeights =>
    intro part member
    -- a key is there for a position that is exposed
    obtain ⟨pv, held, own, exposed⟩ := (mem_parts_keys adds dim _ part.key).mp (List.mem_map_of_mem member)
    have inside : pv ∈ matching dim part.key positions := List.mem_filter.mpr ⟨held, decide_eq_true own⟩
    exact hundred_of_weighed (fun item listed => (items_weight adds dim part.key item listed).2)
      (fun item listed => (items_weight adds dim part.key item listed).1)
      (items_sum adds dim part.key .gross) (measured_gross_pos normalizers _ inside exposed)

def valued (instrumentId : String) (marketValue : Decimal) : PositionValue :=
  { instrumentId, quantity := 1, marketPrice := marketValue, marketValue }

def longAndShort : List PositionValue := [valued "AAPL" 100, valued "MSFT" (-50), valued "AAPL" 50]

theorem longAndShort_partitioned : Partitioned [] longAndShort .instrument
    (calculateExposure .default [] longAndShort (.ofNat 1))
    ((calculateExposure .default [] longAndShort (.ofNat 1)).breakdown .instrument)
    (fun key => (calculateDrilldown .default [] longAndShort .instrument key).items) := by
  refine breakdown_partitioned (addsUp_of_units (e := 0) ?_ (by decide +kernel)) (.ofNat 1) .instrument
  intro pv member
  simp only [longAndShort, List.mem_cons, List.not_mem_nil, or_false] at member
  rcases member with rfl | rfl | rfl
  · exact ⟨100, by decide +kernel⟩
  · exact ⟨-50, by decide +kernel⟩
  · exact ⟨50, by decide +kernel⟩

/-- Three times a third of 100, to 28 digits. -/
theorem thirds_below_hundred :
    let positions := [valued "AAPL" 100, valued "MSFT" 100, valued "GOOG" 100]
    let whole := calculateExposure .default [] positions (.ofNat 1)
    0 < whole.grossExposure ∧
      ((whole.breakdown .instrument).map (·.weightPct)).sum = 100 - 1 / 10 ^ 26 := by
  decide +kernel

end MiniHedge.Exposure
