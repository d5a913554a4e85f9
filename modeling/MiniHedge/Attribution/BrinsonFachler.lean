import MiniHedge.Library.Mapping
import MiniHedge.Library.Groups
import MiniHedge.Library.StableSort
import MiniHedge.Python.Decimal
import Mathlib.Data.String.Basic

/-! Brinson-Fachler attribution: what a portfolio returned above its benchmark, sector by sector.

Floats are exact numbers here; only the results are rounded, by a rounding that is left open.
-/

set_option autoImplicit false

namespace MiniHedge.Attribution

open MiniHedge.Python MiniHedge.Library

structure InstrumentAttribution where
  instrumentId : String
  portfolioWeight : Decimal
  benchmarkWeight : Decimal
  portfolioReturn : Decimal
  benchmarkReturn : Decimal
  contribution : Decimal
  deriving DecidableEq, Repr

structure SectorAttribution where
  sector : String
  portfolioWeight : Decimal
  benchmarkWeight : Decimal
  portfolioReturn : Decimal
  benchmarkReturn : Decimal
  allocationEffect : Decimal
  selectionEffect : Decimal
  interactionEffect : Decimal
  totalEffect : Decimal
  instruments : List InstrumentAttribution
  deriving DecidableEq, Repr

structure BrinsonFachlerResult where
  portfolioReturn : Decimal
  benchmarkReturn : Decimal
  activeReturn : Decimal
  totalAllocation : Decimal
  totalSelection : Decimal
  totalInteraction : Decimal
  sectors : List SectorAttribution
  deriving DecidableEq, Repr

/-- Weights or returns by instrument. -/
abbrev ByInstrument := Dictionary String Decimal

/-- What the portfolio held over the period and what the benchmark did, and the sectors. -/
structure Period where
  portfolioWeights : ByInstrument
  benchmarkWeights : ByInstrument
  portfolioReturns : ByInstrument
  benchmarkReturns : ByInstrument
  sectorMap : Dictionary String String
  deriving DecidableEq

section Sums

variable (weights returns : ByInstrument) (ids : List String)

def weightOf : Decimal := (ids.map fun iid => weights.get iid 0).sum

def contributionOf : Decimal := (ids.map fun iid => weights.get iid 0 * returns.get iid 0).sum

def tolerance : Decimal := 1 / 10 ^ 10

/-- The weighted average, unless the weight is too small or below zero. -/
def sectorReturn : Decimal :=
  if tolerance < weightOf weights ids then contributionOf weights returns ids / weightOf weights ids else 0

end Sums

namespace Period

variable (p : Period)

def sectors : List String := sortOn id p.sectorMap.values.eraseDups

def sectorIds (sector : String) : List String := (p.sectorMap.items.filter (·.2 = sector)).map (·.1)

/-- `set(portfolio_weights) | set(benchmark_weights)`. -/
def instruments : List String := (p.portfolioWeights.keys ++ p.benchmarkWeights.keys).eraseDups

def portReturn : Decimal := contributionOf p.portfolioWeights p.portfolioReturns p.instruments

def benchReturn : Decimal := contributionOf p.benchmarkWeights p.benchmarkReturns p.instruments

section Effects

variable (sector : String)

def pw : Decimal := weightOf p.portfolioWeights (p.sectorIds sector)

def bw : Decimal := weightOf p.benchmarkWeights (p.sectorIds sector)

def pr : Decimal := sectorReturn p.portfolioWeights p.portfolioReturns (p.sectorIds sector)

def br : Decimal := sectorReturn p.benchmarkWeights p.benchmarkReturns (p.sectorIds sector)

def allocation : Decimal := (p.pw sector - p.bw sector) * (p.br sector - p.benchReturn)

def selection : Decimal := p.bw sector * (p.pr sector - p.br sector)

def interaction : Decimal := (p.pw sector - p.bw sector) * (p.pr sector - p.br sector)

def total : Decimal := p.allocation sector + p.selection sector + p.interaction sector

end Effects

/-- The sectors that the loop does not skip. -/
def attributed : List String := p.sectors.filter fun sector => p.sectorIds sector ≠ []

section Results

variable (toDec6 : Decimal → Decimal)

def instrumentAttribution (iid : String) : InstrumentAttribution where
  instrumentId := iid
  portfolioWeight := toDec6 (p.portfolioWeights.get iid 0)
  benchmarkWeight := toDec6 (p.benchmarkWeights.get iid 0)
  portfolioReturn := toDec6 (p.portfolioReturns.get iid 0)
  benchmarkReturn := toDec6 (p.benchmarkReturns.get iid 0)
  contribution := toDec6
    (p.portfolioWeights.get iid 0 * (p.portfolioReturns.get iid 0 - p.benchmarkReturns.get iid 0))

def sectorAttribution (sector : String) : SectorAttribution where
  sector := sector
  portfolioWeight := toDec6 (p.pw sector)
  benchmarkWeight := toDec6 (p.bw sector)
  portfolioReturn := toDec6 (p.pr sector)
  benchmarkReturn := toDec6 (p.br sector)
  allocationEffect := toDec6 (p.allocation sector)
  selectionEffect := toDec6 (p.selection sector)
  interactionEffect := toDec6 (p.interaction sector)
  totalEffect := toDec6 (p.total sector)
  instruments := (p.sectorIds sector).map (p.instrumentAttribution toDec6)

end Results

end Period

/-- `_to_dec6`. -/
def toDec6 (v : Decimal) : Decimal := quantize 6 .halfEven v

def calculateBrinsonFachler (toDec6 : Decimal → Decimal) (p : Period) : BrinsonFachlerResult where
  portfolioReturn := toDec6 p.portReturn
  benchmarkReturn := toDec6 p.benchReturn
  activeReturn := toDec6 (p.portReturn - p.benchReturn)
  totalAllocation := toDec6 (p.attributed.map p.allocation).sum
  totalSelection := toDec6 (p.attributed.map p.selection).sum
  totalInteraction := toDec6 (p.attributed.map p.interaction).sum
  sectors := p.attributed.map (p.sectorAttribution toDec6)

/-! ## Sums over the sectors -/

namespace Period

variable {p : Period}

theorem mem_sectors {sector : String} : sector ∈ p.sectors ↔ sector ∈ p.sectorMap.values := by
  rw [sectors, mem_sortOn, List.mem_eraseDups]

theorem nodup_sectors : p.sectors.Nodup := (sortOn_perm id _).nodup_iff.mpr (nodup_eraseDups _)

/-- No sector is without instruments. -/
theorem attributed_eq : p.attributed = p.sectors := by
  rw [attributed, List.filter_eq_self]
  intro sector member
  obtain ⟨item, inside, same⟩ := List.mem_map.mp (mem_sectors.mp member)
  apply decide_eq_true
  exact List.ne_nil_of_mem (List.mem_map_of_mem (List.mem_filter.mpr ⟨inside, decide_eq_true same⟩))

/-- Sector by sector, every instrument of the map is counted once. -/
theorem sum_sectors (f : String → Decimal) :
    (p.sectors.map fun sector => ((p.sectorIds sector).map f).sum).sum = (p.sectorMap.keys.map f).sum := by
  have covered : ∀ item ∈ p.sectorMap.items, f item.1 ≠ 0 → item.2 ∈ p.sectors :=
    fun item member _ => mem_sectors.mpr (List.mem_map_of_mem member)
  have whole := sum_totalOf_support (fun item : String × String => item.2) (fun item => f item.1)
    nodup_sectors covered
  simp only [totalOf] at whole
  simp only [sectorIds, Dictionary.keys, List.map_map]
  exact whole

/-! ## What the guards leave out -/

section Guards

variable (p) (weights returns : ByInstrument)

/-- What the sectors whose weight is too small or below zero contribute. -/
def dropped : Decimal :=
  ((p.sectors.filter fun sector => weightOf weights (p.sectorIds sector) ≤ tolerance).map fun sector =>
    contributionOf weights returns (p.sectorIds sector)).sum

variable {p weights returns}

theorem weight_mul_return (ids : List String) :
    weightOf weights ids * sectorReturn weights returns ids =
      if tolerance < weightOf weights ids then contributionOf weights returns ids else 0 := by
  unfold sectorReturn
  split
  · rename_i above
    have tolerance_pos : 0 < tolerance := by decide +kernel
    exact mul_div_cancel₀ _ (tolerance_pos.trans above).ne'
  · exact mul_zero _

/-- Weights and returns of the sectors miss what is dropped. -/
theorem sum_weight_mul_return (listed : ∀ iid ∈ weights.keys, iid ∈ p.instruments)
    (covers : ∀ iid ∈ p.instruments, iid ∈ p.sectorMap.keys) :
    (p.sectors.map fun sector =>
        weightOf weights (p.sectorIds sector) * sectorReturn weights returns (p.sectorIds sector)).sum +
      p.dropped weights returns = contributionOf weights returns p.instruments := by
  have nothing : ∀ iid, iid ∉ p.instruments → weights.get iid 0 * returns.get iid 0 = 0 := by
    intro iid outside
    rw [Dictionary.get_absent 0 fun held => outside (listed iid held), zero_mul]
  have whole : (p.sectors.map fun sector => contributionOf weights returns (p.sectorIds sector)).sum =
      contributionOf weights returns p.instruments :=
    (sum_sectors _).trans (sum_subset p.sectorMap.distinct (nodup_eraseDups _) covers nothing)
  have kept : (p.sectors.map fun sector =>
        weightOf weights (p.sectorIds sector) * sectorReturn weights returns (p.sectorIds sector)).sum =
      ((p.sectors.filter fun sector => tolerance < weightOf weights (p.sectorIds sector)).map fun sector =>
        contributionOf weights returns (p.sectorIds sector)).sum := by
    rw [sum_map_filter]
    simp only [weight_mul_return, decide_eq_true_eq]
  have others : p.dropped weights returns =
      ((p.sectors.filter fun sector => !decide (tolerance < weightOf weights (p.sectorIds sector))).map fun sector =>
        contributionOf weights returns (p.sectorIds sector)).sum := by
    simp only [dropped, ← decide_not, not_lt]
  rw [kept, others, sum_filter_add, whole]

theorem sum_weightOf (covers : ∀ iid ∈ weights.keys, iid ∈ p.sectorMap.keys) :
    (p.sectors.map fun sector => weightOf weights (p.sectorIds sector)).sum = weights.values.sum := by
  rw [← Dictionary.map_get_keys 0]
  apply (sum_sectors _).trans
  apply sum_subset p.sectorMap.distinct weights.distinct covers
  exact fun iid absent => Dictionary.get_absent 0 absent

end Guards

theorem sum_effects (sectors : List String) :
    (sectors.map p.allocation).sum + (sectors.map p.selection).sum + (sectors.map p.interaction).sum =
      (sectors.map p.total).sum := by
  rw [← List.sum_map_add, ← List.sum_map_add]
  rfl

/-- The effects of some sectors, without their returns above the benchmark as a whole. -/
theorem sum_total (sectors : List String) :
    (sectors.map p.total).sum =
      (sectors.map fun sector => p.pw sector * p.pr sector).sum -
        (sectors.map fun sector => p.bw sector * p.br sector).sum -
          ((sectors.map p.pw).sum - (sectors.map p.bw).sum) * p.benchReturn := by
  induction sectors with
  | nil => simp
  | cons sector sectors ih =>
    simp only [List.map_cons, List.sum_cons, ih, total, allocation, selection, interaction]
    ring

/-- The effects miss of the active return what is dropped of the portfolio above the benchmark. -/
theorem sum_total_add_dropped (covers : ∀ iid ∈ p.instruments, iid ∈ p.sectorMap.keys)
    (equal : p.portfolioWeights.values.sum = p.benchmarkWeights.values.sum) :
    (p.sectors.map p.total).sum + (p.dropped p.portfolioWeights p.portfolioReturns -
      p.dropped p.benchmarkWeights p.benchmarkReturns) = p.portReturn - p.benchReturn := by
  have listed : ∀ iid, iid ∈ p.instruments ↔ iid ∈ p.portfolioWeights.keys ∨ iid ∈ p.benchmarkWeights.keys := by
    intro iid
    rw [instruments, List.mem_eraseDups, List.mem_append]
  have portfolio : (p.sectors.map fun sector => p.pw sector * p.pr sector).sum +
      p.dropped p.portfolioWeights p.portfolioReturns = p.portReturn :=
    sum_weight_mul_return (fun iid member => (listed iid).mpr (.inl member)) covers
  have benchmark : (p.sectors.map fun sector => p.bw sector * p.br sector).sum +
      p.dropped p.benchmarkWeights p.benchmarkReturns = p.benchReturn :=
    sum_weight_mul_return (fun iid member => (listed iid).mpr (.inr member)) covers
  have weights : (p.sectors.map p.pw).sum = p.portfolioWeights.values.sum :=
    sum_weightOf fun iid member => covers iid ((listed iid).mpr (.inl member))
  have weights' : (p.sectors.map p.bw).sum = p.benchmarkWeights.values.sum :=
    sum_weightOf fun iid member => covers iid ((listed iid).mpr (.inr member))
  rw [sum_total, weights, weights', equal, sub_self, zero_mul, sub_zero, ← portfolio, ← benchmark]
  ring

end Period

/-- In exact arithmetic the effects add up, in all and sector by sector. -/
def AddsUp (r : BrinsonFachlerResult) : Prop :=
  r.totalAllocation + r.totalSelection + r.totalInteraction = r.activeReturn ∧
    (r.sectors.map (·.totalEffect)).sum = r.activeReturn

/-- The effects add up just where what is dropped of the portfolio is what is dropped of the benchmark. -/
theorem addsUp_iff {p : Period} (covers : ∀ iid ∈ p.instruments, iid ∈ p.sectorMap.keys)
    (equal : p.portfolioWeights.values.sum = p.benchmarkWeights.values.sum) :
    AddsUp (calculateBrinsonFachler id p) ↔
      p.dropped p.portfolioWeights p.portfolioReturns = p.dropped p.benchmarkWeights p.benchmarkReturns := by
  have missing := Period.sum_total_add_dropped covers equal
  have totals : (calculateBrinsonFachler id p).totalAllocation + (calculateBrinsonFachler id p).totalSelection +
      (calculateBrinsonFachler id p).totalInteraction = (p.sectors.map p.total).sum := by
    rw [← Period.sum_effects, ← Period.attributed_eq]
    rfl
  have bySector : ((calculateBrinsonFachler id p).sectors.map (·.totalEffect)).sum =
      (p.sectors.map p.total).sum := by
    rw [← Period.attributed_eq]
    simp only [calculateBrinsonFachler, List.map_map]
    rfl
  have active : (calculateBrinsonFachler id p).activeReturn = p.portReturn - p.benchReturn := rfl
  rw [AddsUp, totals, bySector, and_self, active, ← missing, eq_comm, add_eq_left, sub_eq_zero]

/-- What adds up exactly adds up to two units of the last place when it is rounded. -/
theorem addsUp_rounded {p : Period} (addsUp : AddsUp (calculateBrinsonFachler id p)) :
    |(calculateBrinsonFachler toDec6 p).totalAllocation + (calculateBrinsonFachler toDec6 p).totalSelection +
      (calculateBrinsonFachler toDec6 p).totalInteraction - (calculateBrinsonFachler toDec6 p).activeReturn| ≤
        2 / 10 ^ 6 := by
  have exact : (p.attributed.map p.allocation).sum + (p.attributed.map p.selection).sum +
      (p.attributed.map p.interaction).sum = p.portReturn - p.benchReturn := addsUp.1
  obtain ⟨allocation, allocation'⟩ := quantize_bounds 6 .halfEven (p.attributed.map p.allocation).sum
  obtain ⟨selection, selection'⟩ := quantize_bounds 6 .halfEven (p.attributed.map p.selection).sum
  obtain ⟨interaction, interaction'⟩ := quantize_bounds 6 .halfEven (p.attributed.map p.interaction).sum
  obtain ⟨active, active'⟩ := quantize_bounds 6 .halfEven (p.portReturn - p.benchReturn)
  simp only [calculateBrinsonFachler, toDec6]
  rw [abs_le]
  constructor
  · linarith
  · linarith

/-- Two sectors, neither of them held short. -/
def heldLong : Period where
  portfolioWeights := ⟨[("AAPL", 7 / 10), ("JNJ", 3 / 10)], by decide⟩
  benchmarkWeights := ⟨[("AAPL", 1 / 2), ("JNJ", 1 / 2)], by decide⟩
  portfolioReturns := ⟨[("AAPL", 3 / 25), ("JNJ", 3 / 100)], by decide⟩
  benchmarkReturns := ⟨[("AAPL", 1 / 10), ("JNJ", 1 / 50)], by decide⟩
  sectorMap := ⟨[("AAPL", "Technology"), ("JNJ", "Healthcare")], by decide⟩

theorem addsUp_long : AddsUp (calculateBrinsonFachler id heldLong) :=
  (addsUp_iff (by decide +kernel) (by decide +kernel)).mpr (by decide +kernel)

/-- Energy is held short, and was not in the benchmark. -/
def heldShort : Period where
  portfolioWeights := ⟨[("AAPL", 3 / 2), ("XOM", -1 / 2)], by decide⟩
  benchmarkWeights := ⟨[("AAPL", 1)], by decide⟩
  portfolioReturns := ⟨[("AAPL", 1 / 10), ("XOM", 1 / 5)], by decide⟩
  benchmarkReturns := ⟨[("AAPL", 1 / 10), ("XOM", 1 / 5)], by decide⟩
  sectorMap := ⟨[("AAPL", "Technology"), ("XOM", "Energy")], by decide⟩

/-- A tenth is lost on the short position, which is dropped from the effects. -/
theorem effects_miss_short :
    ¬ ∀ p : Period, (∀ iid ∈ p.instruments, iid ∈ p.sectorMap.keys) →
      p.portfolioWeights.values.sum = p.benchmarkWeights.values.sum → AddsUp (calculateBrinsonFachler id p) := by
  intro addsUp
  have held := addsUp heldShort (by decide +kernel) (by decide +kernel)
  have active : (calculateBrinsonFachler id heldShort).activeReturn = -1 / 20 := by decide +kernel
  have effects : (calculateBrinsonFachler id heldShort).totalAllocation +
      (calculateBrinsonFachler id heldShort).totalSelection +
        (calculateBrinsonFachler id heldShort).totalInteraction = 1 / 20 := by decide +kernel
  have same := held.1
  rw [effects, active] at same
  norm_num at same

end MiniHedge.Attribution
