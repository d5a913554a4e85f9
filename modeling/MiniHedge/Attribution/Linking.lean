import MiniHedge.Attribution.BrinsonFachler
import Mathlib.Analysis.SpecialFunctions.Log.Basic

/-! Attribution over many periods, by the factors of Carino.

The numbers of the loop are those of a field with a logarithm, which is a parameter:
the real one where the linked effects are compared with the compounded returns.
-/

set_option autoImplicit false

namespace MiniHedge.Attribution

open MiniHedge.Python MiniHedge.Library

structure CumulativeAttribution (K : Type) where
  cumulativePortfolioReturn : K
  cumulativeBenchmarkReturn : K
  cumulativeActiveReturn : K
  cumulativeAllocation : K
  cumulativeSelection : K
  cumulativeInteraction : K
  periods : List BrinsonFachlerResult

section Linking

variable {K : Type} [Field K] [LinearOrder K] (log : K → K)

/-- `ln(1 + r) / r`, and 1 about zero. -/
def carinoFactor (r : K) : K :=
  if |r| < 1 / 10 ^ 12 then 1
  else if r ≤ -1 then 1
  else log (1 + r) / r

def compounded (returns : List K) : K := returns.foldl (fun cum r => cum * (1 + r)) 1 - 1

def scale (cumPort rp : K) : K :=
  if 1 / 10 ^ 12 < |carinoFactor log cumPort| then carinoFactor log rp / carinoFactor log cumPort else 1

/-- The sum over the periods of what is read of each, scaled. -/
def linked (periods : List BrinsonFachlerResult) (read : BrinsonFachlerResult → Decimal) : K :=
  let cumPort : K := compounded (periods.map fun p => (p.portfolioReturn : K))
  (periods.map fun p => (read p : K) * scale log cumPort p.portfolioReturn).sum

def linkMultiPeriod (toDec6 : K → K) (periods : List BrinsonFachlerResult) : CumulativeAttribution K :=
  match periods with
  | [] => ⟨0, 0, 0, 0, 0, 0, []⟩
  | periods =>
    let cumPort : K := compounded (periods.map fun p => (p.portfolioReturn : K))
    let cumBench : K := compounded (periods.map fun p => (p.benchmarkReturn : K))
    { cumulativePortfolioReturn := toDec6 cumPort
      cumulativeBenchmarkReturn := toDec6 cumBench
      cumulativeActiveReturn := toDec6 (cumPort - cumBench)
      cumulativeAllocation := toDec6 (linked log periods (·.totalAllocation))
      cumulativeSelection := toDec6 (linked log periods (·.totalSelection))
      cumulativeInteraction := toDec6 (linked log periods (·.totalInteraction))
      periods := periods }

/-- The linked effects sum to the active return that is reported. -/
def LinksUp (c : CumulativeAttribution K) : Prop :=
  c.cumulativeAllocation + c.cumulativeSelection + c.cumulativeInteraction = c.cumulativeActiveReturn

end Linking

/-- What a period reports adds up. -/
structure BrinsonFachlerResult.Sound (p : BrinsonFachlerResult) : Prop where
  active : p.activeReturn = p.portfolioReturn - p.benchmarkReturn
  effects : p.totalAllocation + p.totalSelection + p.totalInteraction = p.activeReturn

/-! ## Any logarithm -/

section Field

variable {K : Type} [Field K] [LinearOrder K] {log : K → K}

theorem linked_congr {periods : List BrinsonFachlerResult} {f g : BrinsonFachlerResult → Decimal}
    (same : ∀ p ∈ periods, f p = g p) : (linked log periods f : K) = linked log periods g := by
  unfold linked
  apply congrArg List.sum
  apply List.map_congr_left
  intro p member
  rw [same p member]

variable [CharZero K]

theorem linked_add (periods : List BrinsonFachlerResult) (f g : BrinsonFachlerResult → Decimal) :
    (linked log periods f : K) + linked log periods g = linked log periods fun p => f p + g p := by
  unfold linked
  rw [← List.sum_map_add]
  simp only [Rat.cast_add, add_mul]

/-- The effects of sound periods link to the returns of the portfolio less those of the benchmark. -/
theorem linked_effects {periods : List BrinsonFachlerResult} (sound : ∀ p ∈ periods, p.Sound) :
    (linked log periods (·.totalAllocation) : K) + linked log periods (·.totalSelection) +
        linked log periods (·.totalInteraction) + linked log periods (·.benchmarkReturn) =
      linked log periods (·.portfolioReturn) := by
  rw [linked_add, linked_add, linked_add]
  apply linked_congr
  intro p member
  rw [(sound p member).effects, (sound p member).active, sub_add_cancel]

/-- The effects link up just where scaled and compounded returns are as far apart in the portfolio as in
the benchmark. -/
theorem linksUp_iff {periods : List BrinsonFachlerResult} (sound : ∀ p ∈ periods, p.Sound) :
    LinksUp (linkMultiPeriod log id periods) ↔
      (linked log periods (·.portfolioReturn) : K) -
          compounded (periods.map fun p => (p.portfolioReturn : K)) =
        linked log periods (·.benchmarkReturn) -
          compounded (periods.map fun p => (p.benchmarkReturn : K)) := by
  have effects : (linked log periods (·.totalAllocation) : K) + linked log periods (·.totalSelection) +
      linked log periods (·.totalInteraction) + linked log periods (·.benchmarkReturn) =
        linked log periods (·.portfolioReturn) := linked_effects sound
  cases periods with
  | nil => simp [LinksUp, linkMultiPeriod, linked, compounded]
  | cons p rest =>
    simp only [LinksUp, linkMultiPeriod, id]
    rw [← effects]
    constructor
    · intro same
      rw [same]
      ring
    · intro same
      linear_combination same

end Field

/-! ## The real logarithm -/

section Real

open Real (log)

theorem carinoFactor_mul {r : ℝ} (above : -1 < r) (ordinary : r = 0 ∨ 1 / 10 ^ 12 ≤ |r|) :
    carinoFactor log r * r = log (1 + r) := by
  rcases ordinary with rfl | large
  · simp
  · have nonzero : r ≠ 0 := by
      rintro rfl
      norm_num at large
    rw [carinoFactor, if_neg (not_lt.mpr large), if_neg (not_le.mpr above), div_mul_cancel₀ _ nonzero]

theorem compounded_eq (returns : List ℝ) : compounded returns = (returns.map (1 + ·)).prod - 1 := by
  suffices general : ∀ cum : ℝ, returns.foldl (fun cum r => cum * (1 + r)) cum = cum * (returns.map (1 + ·)).prod by
    rw [compounded, general, one_mul]
  induction returns with
  | nil => simp
  | cons r rest ih =>
    intro cum
    rw [List.foldl_cons, ih, List.map_cons, List.prod_cons, mul_assoc]

theorem compounded_above {returns : List ℝ} (above : ∀ r ∈ returns, -1 < r) : -1 < compounded returns := by
  have positive : 0 < (returns.map (1 + ·)).prod := by
    apply List.prod_pos
    intro factor member
    obtain ⟨r, inside, rfl⟩ := List.mem_map.mp member
    linarith [above r inside]
  rw [compounded_eq]
  linarith

/-- Returns times their factors telescope to the logarithm of what they compound to. -/
theorem sum_carino {returns : List ℝ} (above : ∀ r ∈ returns, -1 < r)
    (ordinary : ∀ r ∈ returns, r = 0 ∨ 1 / 10 ^ 12 ≤ |r|) :
    (returns.map fun r => carinoFactor log r * r).sum = log (1 + compounded returns) := by
  have nonzero : ∀ factor ∈ returns.map (1 + ·), factor ≠ 0 := by
    intro factor member
    obtain ⟨r, inside, rfl⟩ := List.mem_map.mp member
    linarith [above r inside]
  rw [compounded_eq, add_sub_cancel, Real.log_list_prod nonzero, List.map_map]
  apply congrArg List.sum
  apply List.map_congr_left
  intro r member
  exact carinoFactor_mul (above r member) (ordinary r member)

/-- Returns that no special case of the factors is for. -/
structure Ordinary (periods : List BrinsonFachlerResult) : Prop where
  period : ∀ p ∈ periods, (p.portfolioReturn : ℝ) = 0 ∨ 1 / 10 ^ 12 ≤ |(p.portfolioReturn : ℝ)|
  total : compounded (periods.map fun p => (p.portfolioReturn : ℝ)) = 0 ∨
    1 / 10 ^ 12 ≤ |compounded (periods.map fun p => (p.portfolioReturn : ℝ))|
  factor : 1 / 10 ^ 12 < |carinoFactor log (compounded (periods.map fun p => (p.portfolioReturn : ℝ)))|

section Scaled

variable {periods : List BrinsonFachlerResult}

theorem Ordinary.factor_ne (ordinary : Ordinary periods) :
    carinoFactor log (compounded (periods.map fun p => (p.portfolioReturn : ℝ))) ≠ 0 := by
  intro zero
  have factor := ordinary.factor
  rw [zero] at factor
  norm_num at factor

theorem Ordinary.linked_eq (ordinary : Ordinary periods) (read : BrinsonFachlerResult → Decimal) :
    linked log periods read =
      (periods.map fun p => carinoFactor log (p.portfolioReturn : ℝ) * read p).sum /
        carinoFactor log (compounded (periods.map fun p => (p.portfolioReturn : ℝ))) := by
  unfold linked scale
  simp only [if_pos ordinary.factor]
  rw [div_eq_mul_inv, ← List.sum_map_mul_right]
  apply congrArg List.sum
  apply List.map_congr_left
  intro p _
  rw [div_eq_mul_inv]
  ring

/-- The portfolio's own returns compound as the factors say. -/
theorem Ordinary.linked_portfolio (ordinary : Ordinary periods) (above : ∀ p ∈ periods, -1 < p.portfolioReturn) :
    linked log periods (·.portfolioReturn) = compounded (periods.map fun p => (p.portfolioReturn : ℝ)) := by
  have above' : ∀ r ∈ periods.map fun p => (p.portfolioReturn : ℝ), -1 < r := by
    intro r member
    obtain ⟨p, inside, rfl⟩ := List.mem_map.mp member
    exact_mod_cast above p inside
  have ordinary' : ∀ r ∈ periods.map fun p => (p.portfolioReturn : ℝ), r = 0 ∨ 1 / 10 ^ 12 ≤ |r| := by
    intro r member
    obtain ⟨p, inside, rfl⟩ := List.mem_map.mp member
    exact ordinary.period p inside
  have telescoped := sum_carino above' ordinary'
  rw [List.map_map] at telescoped
  have total := carinoFactor_mul (compounded_above above') ordinary.total
  rw [ordinary.linked_eq, div_eq_iff ordinary.factor_ne, mul_comm, total, ← telescoped]
  rfl

/-- One period is not scaled. -/
theorem linksUp_single {p : BrinsonFachlerResult} (sound : p.Sound) : LinksUp (linkMultiPeriod log id [p]) := by
  have own : ∀ r : ℝ, scale log r r = 1 := by
    intro r
    unfold scale
    split
    · rename_i above
      apply div_self
      intro zero
      rw [zero] at above
      norm_num at above
    · rfl
  have alone : ∀ r : ℝ, compounded [r] = r := by
    intro r
    simp [compounded]
  rw [linksUp_iff fun q member => List.mem_singleton.mp member ▸ sound]
  simp [linked, alone, own]

end Scaled

/-- The linked effects add up where, and only where, the benchmark's returns, scaled with the factors of the
portfolio, sum to what the benchmark's returns compound to. -/
theorem linksUp_iff_benchmark {periods : List BrinsonFachlerResult} (sound : ∀ p ∈ periods, p.Sound)
    (above : ∀ p ∈ periods, -1 < p.portfolioReturn) :
    (LinksUp (linkMultiPeriod log id periods) ↔
      linked log periods (·.portfolioReturn) - compounded (periods.map fun p => (p.portfolioReturn : ℝ)) =
        linked log periods (·.benchmarkReturn) - compounded (periods.map fun p => (p.benchmarkReturn : ℝ))) ∧
      (Ordinary periods → (LinksUp (linkMultiPeriod log id periods) ↔
        (periods.map fun p => carinoFactor log (p.portfolioReturn : ℝ) * p.benchmarkReturn).sum =
          carinoFactor log (compounded (periods.map fun p => (p.portfolioReturn : ℝ))) *
            compounded (periods.map fun p => (p.benchmarkReturn : ℝ)))) := by
  constructor
  · exact linksUp_iff sound
  · intro ordinary
    rw [linksUp_iff sound, ordinary.linked_portfolio above, sub_self, eq_comm, sub_eq_zero, ordinary.linked_eq,
      div_eq_iff ordinary.factor_ne, mul_comm]

/-- A portfolio that stood still while its benchmark rose by a tenth. -/
def stoodStill : BrinsonFachlerResult where
  portfolioReturn := 0
  benchmarkReturn := 1 / 10
  activeReturn := -1 / 10
  totalAllocation := 0
  totalSelection := -1 / 10
  totalInteraction := 0
  sectors := []

theorem sound_stoodStill : stoodStill.Sound := ⟨by decide +kernel, by decide +kernel⟩

theorem linksUp_stoodStill : LinksUp (linkMultiPeriod log id [stoodStill]) := by
  have ordinary : Ordinary [stoodStill] := by
    constructor
    · simp [stoodStill]
    · simp [stoodStill, compounded]
    · norm_num [stoodStill, compounded, carinoFactor]
  apply ((linksUp_iff_benchmark (by simp [sound_stoodStill]) (by simp [stoodStill])).2 ordinary).mpr
  simp [stoodStill, compounded, carinoFactor]

/-- Twice a tenth is lost to a benchmark that rose by 21 per cent. -/
theorem effects_miss_compounded :
    ¬ ∀ periods : List BrinsonFachlerResult, (∀ p ∈ periods, p.Sound) →
      (∀ p ∈ periods, -1 < p.portfolioReturn ∧ -1 < p.benchmarkReturn) →
        LinksUp (linkMultiPeriod log id periods) := by
  intro linksUp
  have twice := linksUp [stoodStill, stoodStill] (by simp [sound_stoodStill]) (by simp [stoodStill]; norm_num)
  norm_num [LinksUp, linkMultiPeriod, linked, scale, carinoFactor, compounded, stoodStill] at twice

end Real

end MiniHedge.Attribution
