import MiniHedge.Backtesting.Books

/-! The tear sheet of a backtest: its drawdown periods and its underwater curve.

Both are read off the equity curve again. They take the first point of the curve for the
peak to begin with, where the run began with its initial capital.
-/

set_option autoImplicit false

namespace MiniHedge.Backtesting

open MiniHedge.Python MiniHedge.Library

/-! ## Drawdown periods -/

/-- What a value has lost of a peak. -/
def drawdownFrom (peak value : Decimal) : Decimal := if peak ≠ 0 then (peak - value) / peak else 0

/-- A period as the loop keeps it. -/
structure Period where
  peakDate : CivilDate
  valleyDate : CivilDate
  recoveryDate : Option CivilDate
  maxDrawdown : Decimal
  deriving DecidableEq

/-- The drawdown that the loop is in. -/
structure CurrentDrawdown where
  peakDate : CivilDate
  valley : Decimal
  valleyDate : CivilDate
  maxDrawdown : Decimal

def CurrentDrawdown.close (c : CurrentDrawdown) (recoveryDate : Option CivilDate) : Period where
  peakDate := c.peakDate
  valleyDate := c.valleyDate
  recoveryDate := recoveryDate
  maxDrawdown := c.maxDrawdown

structure DrawdownScan where
  peak : Decimal
  peakDate : CivilDate
  current : Option CurrentDrawdown
  periods : List Period

namespace DrawdownScan

variable (s : DrawdownScan)

/-- The periods, once one that was under way is closed with that date. -/
def closed (recoveryDate : Option CivilDate) : List Period :=
  s.periods ++ (s.current.map (·.close recoveryDate)).toList

def next (pt : EquityCurvePoint) : DrawdownScan :=
  -- a value that is as high as the peak ends the drawdown
  if s.peak ≤ pt.portfolioValue then ⟨pt.portfolioValue, pt.date, none, s.closed (some pt.date)⟩
  else
    let dd := drawdownFrom s.peak pt.portfolioValue
    match s.current with
    | none => { s with current := some ⟨s.peakDate, pt.portfolioValue, pt.date, dd⟩ }
    | some c =>
      if pt.portfolioValue < c.valley then
        { s with current := some { c with valley := pt.portfolioValue, valleyDate := pt.date, maxDrawdown := dd } }
      else s

end DrawdownScan

/-- The periods in the order of the curve. -/
def allPeriods : List EquityCurvePoint → List Period
  | [] => []
  | first :: rest =>
    ((first :: rest).foldl DrawdownScan.next ⟨first.portfolioValue, first.date, none, []⟩).closed none

structure DrawdownPeriod where
  peakDate : CivilDate
  valleyDate : CivilDate
  recoveryDate : Option CivilDate
  maxDrawdown : Decimal
  durationDays : Int
  recoveryDays : Option Int
  deriving DecidableEq

def Period.measured (p : Period) : DrawdownPeriod where
  peakDate := p.peakDate
  valleyDate := p.valleyDate
  recoveryDate := p.recoveryDate
  maxDrawdown := p.maxDrawdown
  durationDays := p.valleyDate.toordinal - p.peakDate.toordinal
  recoveryDays := p.recoveryDate.map fun recovery => recovery.toordinal - p.valleyDate.toordinal

def extractDrawdownPeriods (curve : List EquityCurvePoint) (topN : Nat := 5) : List DrawdownPeriod :=
  ((sortOn (fun p => OrderDual.toDual p.maxDrawdown) (allPeriods curve)).take topN).map Period.measured

/-! ### The periods are the dips of the curve -/

/-- The period of a dip. -/
def periodOf (dip : Dip EquityCurvePoint) : Period where
  peakDate := dip.top.date
  valleyDate := dip.low.date
  recoveryDate := dip.back.map (·.date)
  maxDrawdown := drawdownFrom dip.top.portfolioValue dip.low.portfolioValue

/-- What the loop keeps while it is in the drawdown below a top, with the lowest point so far. -/
def currentOf (top low : EquityCurvePoint) : CurrentDrawdown where
  peakDate := top.date
  valley := low.portfolioValue
  valleyDate := low.date
  maxDrawdown := drawdownFrom top.portfolioValue low.portfolioValue

/-- What the loop keeps once it has read some points. -/
structure DrawdownScan.Of (before : List EquityCurvePoint) (top : EquityCurvePoint) (below : List EquityCurvePoint)
    (s : DrawdownScan) : Prop where
  isTop : IsTop (·.portfolioValue) before top below
  peak : s.peak = top.portfolioValue
  peakDate : s.peakDate = top.date
  current : below = [] ∧ s.current = none ∨ ∃ low, IsLow (·.portfolioValue) below low ∧ s.current = some (currentOf top low)
  periods : ∀ p, p ∈ s.periods ↔ ∃ dip back, dip.back = some back ∧
    IsDip (·.portfolioValue) (before ++ top :: below) dip ∧ p = periodOf dip

namespace DrawdownScan.Of

variable {before below : List EquityCurvePoint} {top : EquityCurvePoint} {s : DrawdownScan}

/-- The period that is closed is that of the dip below the top. -/
theorem mem_closed (kept : s.Of before top below) (back : Option EquityCurvePoint) {p : Period} :
    p ∈ s.closed (back.map (·.date)) ↔ p ∈ s.periods ∨
      ∃ low, IsLow (·.portfolioValue) below low ∧ p = periodOf ⟨top, low, back⟩ := by
  rw [closed, List.mem_append]
  apply or_congr_right
  rcases kept.current with ⟨rfl, none_open⟩ | ⟨low, isLow, isOpen⟩
  · rw [none_open]
    constructor
    · exact fun member => nomatch member
    · rintro ⟨low, isLow, -⟩
      exact absurd rfl isLow.ne_nil
  · rw [isOpen]
    constructor
    · intro member
      exact ⟨low, isLow, List.mem_singleton.mp member⟩
    · rintro ⟨low', isLow', rfl⟩
      obtain rfl := isLow.unique isLow'
      exact List.mem_singleton_self _

theorem next (kept : s.Of before top below) (pt : EquityCurvePoint) :
    ∃ before' top' below', before ++ top :: below ++ [pt] = before' ++ top' :: below' ∧
      (s.next pt).Of before' top' below' := by
  by_cases reached : top.portfolioValue ≤ pt.portfolioValue
  · -- the point is the top from now on
    refine ⟨before ++ top :: below, pt, [], by simp, ?_⟩
    rw [DrawdownScan.next, if_pos (by rwa [kept.peak])]
    refine ⟨⟨?_, by simp⟩, rfl, rfl, .inl ⟨rfl, rfl⟩, ?_⟩
    · intro u member
      apply le_trans _ reached
      rcases List.mem_append.mp member with former | own
      · exact kept.isTop.highest u former
      · rcases List.mem_cons.mp own with rfl | inside
        · exact le_rfl
        · exact (kept.isTop.below u inside).le
    · intro p
      have ended := kept.mem_closed (some pt) (p := p)
      rw [Option.map_some] at ended
      dsimp only
      rw [ended, kept.periods]
      constructor
      · rintro (⟨dip, back, recovered, isDip, rfl⟩ | ⟨low, isLow, rfl⟩)
        · exact ⟨dip, back, recovered, (isDip_append_iff kept.isTop pt recovered).mpr (.inl isDip), rfl⟩
        · exact ⟨⟨top, low, some pt⟩, pt, rfl,
            (isDip_append_iff kept.isTop pt rfl).mpr (.inr ⟨reached, rfl, isLow, rfl⟩), rfl⟩
      · rintro ⟨dip, back, recovered, isDip, rfl⟩
        rcases (isDip_append_iff kept.isTop pt recovered).mp isDip with former | ⟨-, own, isLow, rfl⟩
        · exact .inl ⟨dip, back, recovered, former, rfl⟩
        · refine .inr ⟨dip.low, isLow, ?_⟩
          rw [← own, ← recovered]
  · -- the point is in the drawdown below the top
    have under := not_le.mp reached
    refine ⟨before, top, below ++ [pt], by simp, ?_⟩
    have isTop : IsTop (·.portfolioValue) before top (below ++ [pt]) := by
      refine ⟨kept.isTop.highest, ?_⟩
      intro u member
      rcases List.mem_append.mp member with inside | last
      · exact kept.isTop.below u inside
      · rwa [List.mem_singleton.mp last]
    have periods : ∀ p, p ∈ s.periods ↔ ∃ dip back, dip.back = some back ∧
        IsDip (·.portfolioValue) (before ++ top :: (below ++ [pt])) dip ∧ p = periodOf dip := by
      intro p
      rw [kept.periods]
      apply exists_congr
      intro dip
      apply exists_congr
      intro back
      apply and_congr_right
      intro recovered
      have same := isDip_append_iff kept.isTop pt recovered
      rw [List.append_assoc, List.cons_append] at same
      rw [same, or_iff_left]
      rintro ⟨back, -⟩
      exact reached back
    rw [DrawdownScan.next, if_neg (by rwa [kept.peak])]
    rcases kept.current with ⟨rfl, none_open⟩ | ⟨low, isLow, isOpen⟩
    · rw [none_open]
      refine ⟨isTop, kept.peak, kept.peakDate, .inr ⟨pt, isLow_single pt, ?_⟩, periods⟩
      rw [currentOf, ← kept.peak, ← kept.peakDate]
    · rw [isOpen]
      have lower := isLow.append pt
      have valley : (currentOf top low).valley = low.portfolioValue := rfl
      dsimp only
      rw [valley]
      by_cases deeper : pt.portfolioValue < low.portfolioValue
      · rw [if_pos deeper] at lower ⊢
        refine ⟨isTop, kept.peak, kept.peakDate, .inr ⟨pt, lower, ?_⟩, periods⟩
        rw [kept.peak]
        rfl
      · rw [if_neg deeper] at lower ⊢
        exact ⟨isTop, kept.peak, kept.peakDate, .inr ⟨low, lower, isOpen⟩, periods⟩

end DrawdownScan.Of

/-- The periods are those of the dips of the curve: each from the last day at its highest value so far to the
first at its lowest below that, up to the first day back. -/
theorem mem_allPeriods {curve : List EquityCurvePoint} {p : Period} :
    p ∈ allPeriods curve ↔ ∃ dip, IsDip (·.portfolioValue) curve dip ∧ p = periodOf dip := by
  cases curve with
  | nil =>
    constructor
    · exact fun member => nomatch member
    · rintro ⟨dip, ⟨before, below, rest, split, -⟩, -⟩
      simp at split
  | cons first rest =>
    let start : DrawdownScan := ⟨first.portfolioValue, first.date, none, []⟩
    have opened : start.next first = start := by
      rw [DrawdownScan.next, if_pos le_rfl]
      rfl
    have begun : start.Of [] first [] := by
      refine ⟨⟨by simp, by simp⟩, rfl, rfl, .inl ⟨rfl, rfl⟩, ?_⟩
      intro p
      constructor
      · exact fun member => nomatch member
      · rintro ⟨dip, back, recovered, ⟨before, below, rest, split, -, isLow, head, -⟩, -⟩
        -- one point has nothing after it
        have alone := congrArg List.length split
        have some_below := List.length_pos_of_ne_nil isLow.ne_nil
        simp at alone
        omega
    have scanned : ∀ (pts : List EquityCurvePoint) (s : DrawdownScan) (before : List EquityCurvePoint)
        (top : EquityCurvePoint) (below : List EquityCurvePoint), s.Of before top below →
        ∃ before' top' below', before ++ top :: below ++ pts = before' ++ top' :: below' ∧
          (pts.foldl DrawdownScan.next s).Of before' top' below' := by
      intro pts
      induction pts with
      | nil => exact fun s before top below kept => ⟨before, top, below, List.append_nil _, kept⟩
      | cons pt pts ih =>
        intro s before top below kept
        obtain ⟨before', top', below', same, kept'⟩ := kept.next pt
        obtain ⟨before'', top'', below'', same', kept''⟩ := ih _ _ _ _ kept'
        refine ⟨before'', top'', below'', ?_, kept''⟩
        rw [← same', ← same]
        simp
    obtain ⟨before, top, below, same, kept⟩ := scanned rest start [] first [] begun
    have whole : allPeriods (first :: rest) = ((rest.foldl DrawdownScan.next start).closed none) := by
      rw [allPeriods, List.foldl_cons, opened]
    have ended := kept.mem_closed none (p := p)
    rw [Option.map_none] at ended
    rw [whole, ended, kept.periods]
    change _ ↔ ∃ dip, IsDip _ ([] ++ first :: [] ++ rest) dip ∧ _
    rw [same]
    constructor
    · rintro (⟨dip, back, -, isDip, rfl⟩ | ⟨low, isLow, rfl⟩)
      · exact ⟨dip, isDip, rfl⟩
      · exact ⟨⟨top, low, none⟩, (isDip_open_iff kept.isTop rfl).mpr ⟨rfl, isLow⟩, rfl⟩
    · rintro ⟨dip, isDip, rfl⟩
      cases recovered : dip.back with
      | some back => exact .inl ⟨dip, back, recovered, isDip, rfl⟩
      | none =>
        obtain ⟨own, isLow⟩ := (isDip_open_iff kept.isTop recovered).mp isDip
        refine .inr ⟨dip.low, isLow, ?_⟩
        rw [← own, ← recovered]

/-! ### The deepest periods come first -/

section Ranked

variable (curve : List EquityCurvePoint) (topN : Nat)

theorem mem_extractDrawdownPeriods {p : DrawdownPeriod} (member : p ∈ extractDrawdownPeriods curve topN) :
    ∃ dip, IsDip (·.portfolioValue) curve dip ∧ p = (periodOf dip).measured := by
  obtain ⟨period, taken, rfl⟩ := List.mem_map.mp member
  obtain ⟨dip, isDip, rfl⟩ := mem_allPeriods.mp ((mem_sortOn _).mp (List.mem_of_mem_take taken))
  exact ⟨dip, isDip, rfl⟩

theorem extractDrawdownPeriods_ranked :
    (extractDrawdownPeriods curve topN).Pairwise fun p q => q.maxDrawdown ≤ p.maxDrawdown := by
  rw [extractDrawdownPeriods, List.pairwise_map]
  exact (sortOn_sorted (fun p : Period => OrderDual.toDual p.maxDrawdown) (allPeriods curve)).sublist
    (List.take_sublist _ _)

/-- A dip that is left out is no deeper than those that are in, of which there are as many as there may be. -/
theorem left_out {dip : Dip EquityCurvePoint} (isDip : IsDip (·.portfolioValue) curve dip)
    (out : (periodOf dip).measured ∉ extractDrawdownPeriods curve topN) :
    (extractDrawdownPeriods curve topN).length = topN ∧
      ∀ p ∈ extractDrawdownPeriods curve topN, (periodOf dip).maxDrawdown ≤ p.maxDrawdown := by
  let depth : Period → Decimalᵒᵈ := fun p => OrderDual.toDual p.maxDrawdown
  have among : periodOf dip ∈ sortOn depth (allPeriods curve) :=
    (mem_sortOn _).mpr (mem_allPeriods.mpr ⟨dip, isDip, rfl⟩)
  have sorted := sortOn_sorted depth (allPeriods curve)
  rw [← List.take_append_drop topN (sortOn depth (allPeriods curve))] at among sorted
  have dropped : periodOf dip ∈ (sortOn depth (allPeriods curve)).drop topN := by
    rcases List.mem_append.mp among with taken | dropped
    · exact absurd (List.mem_map_of_mem taken) out
    · exact dropped
  constructor
  · rw [extractDrawdownPeriods, List.length_map, List.length_take, min_eq_left]
    have longer := List.length_pos_of_mem dropped
    rw [List.length_drop] at longer
    exact (Nat.sub_pos_iff_lt.mp longer).le
  · intro p member
    obtain ⟨period, taken, rfl⟩ := List.mem_map.mp member
    exact (List.pairwise_append.mp sorted).2.2 period taken (periodOf dip) dropped

end Ranked

/-- What is reported are dips of the curve, deepest first, and no dip that is left out is deeper than one of them. -/
theorem drawdowns_are_deepest_dips (curve : List EquityCurvePoint) (topN : Nat) :
    (∀ p ∈ extractDrawdownPeriods curve topN,
      ∃ dip, IsDip (·.portfolioValue) curve dip ∧ p = (periodOf dip).measured) ∧
    ((extractDrawdownPeriods curve topN).Pairwise fun p q => q.maxDrawdown ≤ p.maxDrawdown) ∧
    ∀ dip, IsDip (·.portfolioValue) curve dip → (periodOf dip).measured ∉ extractDrawdownPeriods curve topN →
      (extractDrawdownPeriods curve topN).length = topN ∧
        ∀ p ∈ extractDrawdownPeriods curve topN, (periodOf dip).maxDrawdown ≤ p.maxDrawdown :=
  ⟨fun _ => mem_extractDrawdownPeriods curve topN, extractDrawdownPeriods_ranked curve topN,
    fun _ => left_out curve topN⟩

/-! ### The deepest one and the maximum drawdown -/

section Positive

variable {curve : List EquityCurvePoint} (positive : ∀ pt ∈ curve, 0 < pt.portfolioValue)
include positive

theorem falls_greatest (nonempty : curve ≠ []) :
    IsGreatest (falls (curve.map (·.portfolioValue))) (computeMaxDrawdown .exact curve) :=
  maxDrawdown_greatest (mt List.map_eq_nil_iff.mp nonempty) (List.forall_mem_map.mpr positive)

/-- What is lost in a dip is a fall of the curve. -/
theorem dip_le {dip : Dip EquityCurvePoint} (isDip : IsDip (·.portfolioValue) curve dip) :
    (periodOf dip).maxDrawdown ≤ computeMaxDrawdown .exact curve := by
  obtain ⟨before, below, rest, rfl, -, isLow, -⟩ := isDip
  obtain ⟨earlier, later, rfl, -, -⟩ := isLow
  have top_pos := positive dip.top (by simp)
  rw [periodOf, drawdownFrom, if_pos top_pos.ne']
  apply (falls_greatest positive (by simp)).2
  refine ⟨before.length, before.length + 1 + earlier.length, dip.top.portfolioValue, dip.low.portfolioValue,
    by omega, ?_, ?_, rfl⟩
  · simp
  · simp only [List.map_append, List.map_cons, List.append_assoc, List.cons_append]
    rw [List.getElem?_append_right (by simp; omega), List.length_map,
      show before.length + 1 + earlier.length - before.length = earlier.length + 1 by omega, List.getElem?_cons_succ,
      List.getElem?_append_right (by simp), List.length_map, Nat.sub_self, List.getElem?_cons_zero]

/-- Where the curve falls at all, a dip loses as much as the maximum drawdown. -/
theorem exists_deepest (fallen : 0 < computeMaxDrawdown .exact curve) :
    ∃ dip, IsDip (·.portfolioValue) curve dip ∧ (periodOf dip).maxDrawdown = computeMaxDrawdown .exact curve := by
  have nonempty : curve ≠ [] := by
    rintro rfl
    exact absurd fallen (lt_irrefl _)
  obtain ⟨i, j, a, b, order, at_i, at_j, lost⟩ := (falls_greatest positive nonempty).1
  rw [List.getElem?_map, Option.map_eq_some_iff] at at_i at_j
  obtain ⟨higher, at_i, rfl⟩ := at_i
  obtain ⟨pt, at_j, rfl⟩ := at_j
  have higher_pos := positive higher (List.mem_of_getElem? at_i)
  have under : pt.portfolioValue < higher.portfolioValue := by
    rw [lost, lt_div_iff₀ higher_pos, zero_mul] at fallen
    exact sub_pos.mp fallen
  have apart : i < j := by
    apply Nat.lt_of_le_of_ne order
    rintro rfl
    cases at_i.symm.trans at_j
    exact lt_irrefl _ under
  -- the dip in which the lower point lies
  have split := List.take_append_drop j curve
  rw [List.drop_eq_getElem?_toList_append, at_j, Option.toList_some, List.singleton_append] at split
  have earlier : higher ∈ curve.take j := List.mem_of_getElem? (by rw [List.getElem?_take_of_lt apart, at_i])
  obtain ⟨dip, inDip⟩ := exists_inDip (curve.drop (j + 1)) earlier under
  have reached := inDip.highest (List.mem_append_left _ earlier)
  have lowest := inDip.low_le
  have isDip := inDip.isDip
  rw [split] at isDip
  refine ⟨dip, isDip, le_antisymm (dip_le positive isDip) ?_⟩
  obtain ⟨before, below, rest, same, -, isLow, -⟩ := isDip
  have top_pos := positive dip.top (by rw [same]; simp)
  have low_pos := positive dip.low (by rw [same]; simp [isLow.mem])
  rw [periodOf, drawdownFrom, if_pos top_pos.ne', lost]
  calc (higher.portfolioValue - pt.portfolioValue) / higher.portfolioValue
      ≤ (higher.portfolioValue - dip.low.portfolioValue) / higher.portfolioValue := by gcongr
    _ ≤ (dip.top.portfolioValue - dip.low.portfolioValue) / dip.top.portfolioValue :=
      fall_mono higher_pos reached low_pos.le

end Positive

/-- The first period that is reported has lost the maximum drawdown of the backtest, and none is reported only where
that is zero. -/
theorem worst_drawdown {curve : List EquityCurvePoint} (positive : ∀ pt ∈ curve, 0 < pt.portfolioValue) {topN : Nat}
    (some_shown : 0 < topN) :
    computeMaxDrawdown .exact curve = ((extractDrawdownPeriods curve topN).head?.map (·.maxDrawdown)).getD 0 := by
  have nonneg : 0 ≤ computeMaxDrawdown .exact curve := maxDrawdown_nonneg _ _
  cases shown : extractDrawdownPeriods curve topN with
  | nil =>
    by_contra fallen
    obtain ⟨dip, isDip, -⟩ := exists_deepest positive (lt_of_le_of_ne nonneg (Ne.symm fallen))
    have full := (left_out curve topN isDip (by simp [shown])).1
    rw [shown] at full
    exact some_shown.ne full
  | cons first rest =>
    have among : first ∈ extractDrawdownPeriods curve topN := by simp [shown]
    obtain ⟨dip, isDip, rfl⟩ := mem_extractDrawdownPeriods curve topN among
    change computeMaxDrawdown .exact curve = (periodOf dip).maxDrawdown
    apply le_antisymm _ (dip_le positive isDip)
    rcases nonneg.eq_or_lt with level | fallen
    · -- nothing is lost: a dip would lose something
      obtain ⟨before, below, later, rfl, isTop, isLow, -⟩ := isDip
      have top_pos := positive dip.top (by simp)
      rw [← level, periodOf, drawdownFrom, if_pos top_pos.ne']
      exact div_nonneg (sub_nonneg.mpr (isTop.below _ isLow.mem).le) top_pos.le
    · obtain ⟨deepest, isDip', same⟩ := exists_deepest positive fallen
      rw [← same]
      have ranked := extractDrawdownPeriods_ranked curve topN
      by_cases shown' : (periodOf deepest).measured ∈ extractDrawdownPeriods curve topN
      · rw [shown] at shown' ranked
        rcases List.mem_cons.mp shown' with own | later
        · exact (congrArg DrawdownPeriod.maxDrawdown own).le
        · exact (List.pairwise_cons.mp ranked).1 _ later
      · exact (left_out curve topN isDip' shown').2 _ among

/-- A curve with two drawdowns, the second of them under way. -/
def dipping : List EquityCurvePoint :=
  [100, 90, 80, 120, 90].mapIdx fun i value => ⟨.ofNat 2025 1 (i + 1), value, none, 0⟩

example : (extractDrawdownPeriods dipping).map (fun p => (p.maxDrawdown, p.durationDays, p.recoveryDays)) =
    [(1 / 4, 1, none), (1 / 5, 2, some 1)] := by decide +kernel

theorem dipping_worst : 0 < 1 ∧
    computeMaxDrawdown .exact dipping = ((extractDrawdownPeriods dipping 1).head?.map (·.maxDrawdown)).getD 0 :=
  ⟨by decide, worst_drawdown (by decide +kernel) (by decide)⟩

/-! ## The underwater curve -/

structure UnderwaterPoint where
  date : CivilDate
  drawdown : Decimal
  deriving DecidableEq, Repr

def underwaterFrom : Decimal → List EquityCurvePoint → List UnderwaterPoint
  | _, [] => []
  | peak, pt :: rest =>
    let peak := if peak < pt.portfolioValue then pt.portfolioValue else peak
    ⟨pt.date, if peak ≠ 0 then (pt.portfolioValue - peak) / peak else 0⟩ :: underwaterFrom peak rest

def computeUnderwaterCurve : List EquityCurvePoint → List UnderwaterPoint
  | [] => []
  | first :: rest => underwaterFrom first.portfolioValue (first :: rest)

/-- The peak, once these points are read. -/
def peakAfter (peak : Decimal) (pts : List EquityCurvePoint) : Decimal :=
  pts.foldl (fun peak pt => if peak < pt.portfolioValue then pt.portfolioValue else peak) peak

theorem peakAfter_concat (peak : Decimal) (pts : List EquityCurvePoint) (pt : EquityCurvePoint) :
    peakAfter peak (pts ++ [pt]) =
      if peakAfter peak pts < pt.portfolioValue then pt.portfolioValue else peakAfter peak pts := by
  rw [peakAfter, List.foldl_concat, ← peakAfter]

theorem peakAfter_greatest (peak : Decimal) (pts : List EquityCurvePoint) :
    IsGreatest {v | v = peak ∨ ∃ pt ∈ pts, pt.portfolioValue = v} (peakAfter peak pts) := by
  induction pts using List.reverseRecOn with
  | nil => exact ⟨.inl rfl, fun v member => by rcases member with rfl | ⟨pt, ⟨⟩, -⟩; exact le_rfl⟩
  | append_singleton pts pt ih =>
    rw [peakAfter_concat]
    have up : ∀ v, (v = peak ∨ ∃ u ∈ pts ++ [pt], u.portfolioValue = v) →
        v ≤ peakAfter peak pts ∨ v = pt.portfolioValue := by
      rintro v (own | ⟨u, member, rfl⟩)
      · exact .inl (ih.2 (.inl own))
      · rcases List.mem_append.mp member with former | last
        · exact .inl (ih.2 (.inr ⟨u, former, rfl⟩))
        · exact .inr (by rw [List.mem_singleton.mp last])
    split
    · rename_i above
      refine ⟨.inr ⟨pt, by simp, rfl⟩, fun v member => ?_⟩
      rcases up v member with former | rfl
      · exact former.trans above.le
      · exact le_rfl
    · rename_i under
      refine ⟨ih.1.imp_right fun ⟨u, former, same⟩ => ⟨u, List.mem_append_left _ former, same⟩, fun v member => ?_⟩
      rcases up v member with former | rfl
      · exact former
      · exact not_lt.mp under

theorem neg_drawdownFrom (peak value : Decimal) :
    -drawdownFrom peak value = if peak ≠ 0 then (value - peak) / peak else 0 := by
  rw [drawdownFrom]
  split
  · rw [← neg_div, neg_sub]
  · exact neg_zero

theorem underwaterFrom_split (peak : Decimal) (done : List EquityCurvePoint) (pt : EquityCurvePoint)
    (later : List EquityCurvePoint) :
    (underwaterFrom peak (done ++ pt :: later))[done.length]? =
      some ⟨pt.date, -drawdownFrom (peakAfter peak (done ++ [pt])) pt.portfolioValue⟩ := by
  induction done generalizing peak with
  | nil =>
    rw [List.nil_append, underwaterFrom, List.length_nil, List.getElem?_cons_zero, neg_drawdownFrom]
    rfl
  | cons u done ih =>
    rw [List.cons_append, underwaterFrom, List.length_cons, List.getElem?_cons_succ, ih]
    rfl

/-- At each point, the curve shows what the value has lost of the highest value so far. -/
theorem computeUnderwaterCurve_split {curve done later : List EquityCurvePoint} {pt : EquityCurvePoint}
    (split : curve = done ++ pt :: later) :
    ∃ top, IsGreatest {v | ∃ u ∈ done ++ [pt], u.portfolioValue = v} top ∧
      (computeUnderwaterCurve curve)[done.length]? = some ⟨pt.date, -drawdownFrom top pt.portfolioValue⟩ := by
  obtain ⟨first, rest, same⟩ : ∃ first rest, done ++ [pt] = first :: rest :=
    List.exists_cons_of_ne_nil (by simp)
  refine ⟨peakAfter first.portfolioValue (done ++ [pt]), ?_, ?_⟩
  · have greatest := peakAfter_greatest first.portfolioValue (done ++ [pt])
    have own : ∃ u ∈ done ++ [pt], u.portfolioValue = first.portfolioValue := ⟨first, by simp [same], rfl⟩
    refine ⟨?_, fun v member => greatest.2 (.inr member)⟩
    rcases greatest.1 with level | member
    · rw [level]
      exact own
    · exact member
  · have whole : curve = first :: (rest ++ later) := by
      rw [split, ← List.cons_append, ← same]
      simp
    rw [← underwaterFrom_split, ← split]
    conv_lhs => rw [whole, computeUnderwaterCurve, ← whole]

section Underwater

variable {curve : List EquityCurvePoint} (positive : ∀ pt ∈ curve, 0 < pt.portfolioValue)
  {done later : List EquityCurvePoint} {pt : EquityCurvePoint} (split : curve = done ++ pt :: later) {top : Decimal}
  (greatest : IsGreatest {v | ∃ u ∈ done ++ [pt], u.portfolioValue = v} top)
include positive split greatest

theorem top_pos : 0 < top := by
  obtain ⟨u, member, rfl⟩ := greatest.1
  apply positive
  rw [split]
  rcases List.mem_append.mp member with former | last
  · exact List.mem_append_left _ former
  · rw [List.mem_singleton.mp last]
    simp

theorem drawdownFrom_le_max : drawdownFrom top pt.portfolioValue ≤ computeMaxDrawdown .exact curve := by
  have positive' := top_pos positive split greatest
  obtain ⟨u, member, rfl⟩ := greatest.1
  rw [drawdownFrom, if_pos positive'.ne']
  apply (falls_greatest positive (by simp [split])).2
  have values : curve.map (·.portfolioValue) =
      done.map (·.portfolioValue) ++ [pt.portfolioValue] ++ later.map (·.portfolioValue) := by simp [split]
  rw [values]
  apply falls_subset
  rw [falls_append]
  refine .inr ⟨u.portfolioValue, ?_, rfl⟩
  have among := List.mem_map_of_mem (f := (·.portfolioValue)) member
  rwa [List.map_append, List.map_singleton] at among

/-- What is lost of the highest value so far, and when it is something. -/
theorem drawdownFrom_bounds :
    0 ≤ drawdownFrom top pt.portfolioValue ∧ drawdownFrom top pt.portfolioValue < 1 ∧
      (0 < drawdownFrom top pt.portfolioValue ↔ ∃ dip, InDip (·.portfolioValue) done pt later dip) := by
  have positive' := top_pos positive split greatest
  have own : 0 < pt.portfolioValue := positive pt (by simp [split])
  have higher : pt.portfolioValue ≤ top := greatest.2 ⟨pt, by simp, rfl⟩
  rw [drawdownFrom, if_pos positive'.ne']
  refine ⟨div_nonneg (sub_nonneg.mpr higher) positive'.le, (div_lt_one positive').mpr (by linarith), ?_⟩
  rw [lt_div_iff₀ positive', zero_mul, sub_pos]
  constructor
  · intro under
    obtain ⟨u, member, rfl⟩ := greatest.1
    have earlier : u ∈ done := by
      rcases List.mem_append.mp member with former | last
      · exact former
      · rw [List.mem_singleton.mp last] at under
        exact absurd under (lt_irrefl _)
    exact exists_inDip later earlier under
  · rintro ⟨dip, inDip⟩
    exact inDip.lt_top.trans_le (greatest.2 ⟨dip.top, by simp [inDip.top_mem], rfl⟩)

end Underwater

/-- The curve is below zero in the dips of the equity curve and nowhere else, and where it is lowest it has lost the
maximum drawdown. -/
theorem underwater_spec {curve : List EquityCurvePoint} (positive : ∀ pt ∈ curve, 0 < pt.portfolioValue) :
    (∀ done pt later, curve = done ++ pt :: later → ∃ u, (computeUnderwaterCurve curve)[done.length]? = some u ∧
      u.date = pt.date ∧ -1 < u.drawdown ∧ u.drawdown ≤ 0 ∧ -computeMaxDrawdown .exact curve ≤ u.drawdown ∧
      (u.drawdown < 0 ↔ ∃ dip, InDip (·.portfolioValue) done pt later dip)) ∧
    (curve ≠ [] → ∃ u ∈ computeUnderwaterCurve curve, u.drawdown = -computeMaxDrawdown .exact curve) := by
  constructor
  · intro done pt later split
    obtain ⟨top, greatest, shown⟩ := computeUnderwaterCurve_split split
    obtain ⟨nonneg, below_one, dips⟩ := drawdownFrom_bounds positive split greatest
    refine ⟨_, shown, rfl, neg_lt_neg below_one, neg_nonpos.mpr nonneg,
      neg_le_neg (drawdownFrom_le_max positive split greatest), ?_⟩
    rw [← dips]
    exact neg_neg_iff_pos
  · intro nonempty
    obtain ⟨i, j, a, b, order, at_i, at_j, lost⟩ := (falls_greatest positive nonempty).1
    rw [List.getElem?_map, Option.map_eq_some_iff] at at_i at_j
    obtain ⟨higher, at_i, rfl⟩ := at_i
    obtain ⟨pt, at_j, rfl⟩ := at_j
    have split : curve = curve.take j ++ pt :: curve.drop (j + 1) := by
      rw [← List.singleton_append, ← Option.toList_some, ← at_j, ← List.drop_eq_getElem?_toList_append,
        List.take_append_drop]
    have earlier : higher ∈ curve.take j ++ [pt] := by
      rcases Nat.lt_or_eq_of_le order with before | rfl
      · exact List.mem_append_left _ (List.mem_of_getElem? (by rw [List.getElem?_take_of_lt before, at_i]))
      · cases at_i.symm.trans at_j
        simp
    obtain ⟨top, greatest, shown⟩ := computeUnderwaterCurve_split split
    have positive' := top_pos positive split greatest
    refine ⟨_, List.mem_of_getElem? shown, ?_⟩
    apply congrArg Neg.neg
    apply le_antisymm (drawdownFrom_le_max positive split greatest)
    rw [drawdownFrom, if_pos positive'.ne', lost]
    exact fall_mono (positive higher (List.mem_of_getElem? at_i)) (greatest.2 ⟨higher, earlier, rfl⟩)
      (positive pt (List.mem_of_getElem? at_j)).le

theorem dipping_underwater : dipping ≠ [] ∧
    ∃ u ∈ computeUnderwaterCurve dipping, u.drawdown = -computeMaxDrawdown .exact dipping :=
  ⟨by decide +kernel, (underwater_spec (by decide +kernel)).2 (by decide +kernel)⟩

/-! ### The drawdowns that the run has recorded -/

/-- The drawdowns of the points are those from the peak, which began with the capital. -/
def Recorded (capital : Decimal) (curve : List EquityCurvePoint) : Prop :=
  ∀ done pt later, curve = done ++ pt :: later →
    pt.drawdown = drawdownFrom (peakAfter capital (done ++ [pt])) pt.portfolioValue

theorem recorded_concat {capital : Decimal} {curve : List EquityCurvePoint} (recorded : Recorded capital curve)
    {pt : EquityCurvePoint} (own : pt.drawdown = drawdownFrom (peakAfter capital (curve ++ [pt])) pt.portfolioValue) :
    Recorded capital (curve ++ [pt]) := by
  intro done u later split
  rcases List.eq_nil_or_concat later with rfl | ⟨later, last, rfl⟩
  · obtain ⟨rfl, same⟩ := List.append_inj' split rfl
    obtain rfl := (List.cons.inj same).1
    exact own
  · have parts : curve = done ++ u :: later ∧ [pt] = [last] := List.append_inj' (by rw [split]; simp) rfl
    exact recorded done u later parts.1

section Run

variable {b : Backtest} {e : Enumeration}

/-- Each state has its peak, and its curve the drawdowns from the peaks before. -/
theorem recorded_after (b : Backtest) (e : Enumeration) (dates : List CivilDate) :
    (b.after e dates).peak = peakAfter b.config.initialCapital (b.after e dates).equityCurve ∧
      Recorded b.config.initialCapital (b.after e dates).equityCurve := by
  induction dates using List.reverseRecOn with
  | nil =>
    refine ⟨rfl, ?_⟩
    intro done pt later split
    simp [Backtest.after, Backtest.opening] at split
  | append_singleton dates date ih =>
    obtain ⟨peak, recorded⟩ := ih
    rw [Backtest.after, List.foldl_concat, ← Backtest.after, Backtest.day]
    split
    · exact ⟨peak, recorded⟩
    · have untouched := Rebalancing.untouched_trades (r := b.rebalancing (b.after e dates) date)
        (b.instruments e (b.after e dates) date) (b.after e dates)
      rw [← Backtest.traded] at untouched
      generalize b.traded e (b.after e dates) date = s at untouched ⊢
      obtain ⟨curve, former, -⟩ := untouched
      rw [← curve] at recorded
      rw [← former, ← curve] at peak
      have now : s.peakAt (s.value (b.prices date)) =
          peakAfter b.config.initialCapital (s.equityCurve ++ [s.point date (b.prices date)]) := by
        rw [peakAfter_concat, ← peak]
        rfl
      refine ⟨now, recorded_concat recorded ?_⟩
      rw [← now]
      rfl

/-- The underwater curve repeats the drawdown that the run has recorded for a point if, and only if, the portfolio
has been worth its initial capital by then: before, the run counts what is lost of the capital. -/
theorem underwater_recorded_iff {floats : Floats} (capital : 0 < b.config.initialCapital)
    (positive : ∀ pt ∈ (b.run floats e).equityCurve, 0 < pt.portfolioValue) {done later : List EquityCurvePoint}
    {pt : EquityCurvePoint} (split : (b.run floats e).equityCurve = done ++ pt :: later) :
    (computeUnderwaterCurve (b.run floats e).equityCurve)[done.length]? = some ⟨pt.date, -pt.drawdown⟩ ↔
      ∃ u ∈ done ++ [pt], b.config.initialCapital ≤ u.portfolioValue := by
  have recorded := (recorded_after b e b.dates).2 done pt later
  rw [← Backtest.final, ← Backtest.equityCurve_run floats] at recorded
  obtain ⟨top, greatest, shown⟩ := computeUnderwaterCurve_split split
  have top_positive := top_pos positive split greatest
  have own := positive pt (by simp [split])
  have peak := peakAfter_greatest b.config.initialCapital (done ++ [pt])
  rw [shown, recorded split, Option.some.injEq, UnderwaterPoint.mk.injEq, neg_inj]
  generalize peakAfter b.config.initialCapital (done ++ [pt]) = highest at peak
  have capital_le : b.config.initialCapital ≤ highest := peak.2 (.inl rfl)
  have highest_positive : 0 < highest := capital.trans_le capital_le
  -- of two peaks above it, a positive value has lost more of the higher one
  have same_loss : drawdownFrom top pt.portfolioValue = drawdownFrom highest pt.portfolioValue ↔ top = highest := by
    rw [drawdownFrom, drawdownFrom, if_pos top_positive.ne', if_pos highest_positive.ne', sub_div, sub_div,
      div_self top_positive.ne', div_self highest_positive.ne', sub_right_inj,
      div_eq_div_iff top_positive.ne' highest_positive.ne', mul_right_inj' own.ne', eq_comm]
  rw [same_loss]
  constructor
  · rintro ⟨-, rfl⟩
    obtain ⟨u, member, reached⟩ := greatest.1
    exact ⟨u, member, by rwa [reached]⟩
  · rintro ⟨u, member, reached⟩
    refine ⟨rfl, le_antisymm (peak.2 (.inr greatest.1)) ?_⟩
    rcases peak.1 with level | among
    · rw [level]
      exact reached.trans (greatest.2 ⟨u, member, rfl⟩)
    · exact greatest.2 among

end Run

/-- The crossing backtest is back above its capital on its second day. -/
theorem crossing_recorded :
    (computeUnderwaterCurve (crossing.run roughFloats .listed).equityCurve)[1]? = some ⟨jan 3, -0⟩ :=
  have split : (crossing.run roughFloats .listed).equityCurve =
      [⟨jan 2, 2000000 / 2003, none, 3 / 2003⟩] ++ crossingPoint :: [] := by
    rw [Backtest.equityCurve_run]
    decide +kernel
  (underwater_recorded_iff (by decide +kernel) (by rw [split]; decide +kernel) split).mpr
    ⟨crossingPoint, by simp, by decide +kernel⟩

/-! ## Tail losses -/

/-- `int(n * (1 - confidence))`, with an exact product. -/
def tailCount (confidence : Decimal) (n : Nat) : Nat := (n * (1 - confidence)).floor.toNat

/-- A return as a loss, and none where it is a gain. -/
def lossOf (r : Decimal) : Decimal := if r < 0 then -r else 0

def computeVar (returns : List Decimal) (confidence : Decimal := 19 / 20) : Decimal :=
  let sorted := sortOn id returns
  (sorted[min (tailCount confidence sorted.length) (sorted.length - 1)]?.map lossOf).getD 0

def computeCvar (returns : List Decimal) (confidence : Decimal := 19 / 20) : Decimal :=
  if returns = [] then 0
  else
    let sorted := sortOn id returns
    let tail := sorted.take (max 1 (tailCount confidence sorted.length))
    lossOf (tail.sum / tail.length)

theorem lossOf_eq (r : Decimal) : lossOf r = max (-r) 0 := by
  rw [lossOf]
  split
  · rename_i lost
    rw [max_eq_left (neg_nonneg.mpr lost.le)]
  · rename_i kept
    rw [max_eq_right (neg_nonpos.mpr (not_lt.mp kept))]

theorem lossOf_anti {r r' : Decimal} (lower : r ≤ r') : lossOf r' ≤ lossOf r := by
  rw [lossOf_eq, lossOf_eq]
  exact max_le_max (neg_le_neg lower) le_rfl

theorem lossOf_nonneg (r : Decimal) : 0 ≤ lossOf r := by
  rw [lossOf_eq]
  exact le_max_right _ _

section TailLosses

variable {returns : List Decimal} (confidence : Decimal)

/-- Of returns that are sorted, the one that the value at risk is read off. -/
theorem computeVar_eq (nonempty : returns ≠ []) :
    ∃ i, ∃ inside : i < (sortOn id returns).length,
      i = min (tailCount confidence returns.length) (returns.length - 1) ∧
      computeVar returns confidence = lossOf (sortOn id returns)[i] := by
  have length := (sortOn_perm id returns).length_eq
  have some_returns := List.length_pos_of_ne_nil nonempty
  have read : computeVar returns confidence =
      ((sortOn id returns)[min (tailCount confidence returns.length) (returns.length - 1)]?.map lossOf).getD 0 := by
    rw [computeVar, ← length]
  have inside : min (tailCount confidence returns.length) (returns.length - 1) < (sortOn id returns).length := by omega
  refine ⟨_, inside, rfl, ?_⟩
  rw [read, List.getElem?_eq_getElem inside]
  rfl

theorem computeVar_nonneg (returns : List Decimal) : 0 ≤ computeVar returns confidence := by
  by_cases nonempty : returns = []
  · subst nonempty
    exact le_rfl
  · obtain ⟨i, inside, -, same⟩ := computeVar_eq confidence nonempty
    rw [same]
    exact lossOf_nonneg _

/-- The tail is read up to the return of the value at risk, so that it has lost at least as much on average. -/
theorem computeVar_le_computeCvar (returns : List Decimal) :
    computeVar returns confidence ≤ computeCvar returns confidence := by
  by_cases nonempty : returns = []
  · subst nonempty
    exact le_rfl
  · obtain ⟨i, inside, place, same⟩ := computeVar_eq confidence nonempty
    have length := (sortOn_perm id returns).length_eq
    rw [same, computeCvar, if_neg nonempty]
    dsimp only
    rw [length]
    apply lossOf_anti
    have bounded := sum_take_le (sortOn_sorted id returns) inside (n := max 1 (tailCount confidence returns.length))
      (by rw [length]; omega)
    rw [nsmul_eq_mul] at bounded
    have some_taken : 0 < ((sortOn id returns).take (max 1 (tailCount confidence returns.length))).length := by
      rw [List.length_take]
      omega
    rw [div_le_iff₀ (by exact_mod_cast some_taken), mul_comm]
    exact bounded

theorem computeCvar_le {worst : Decimal} (nonneg : 0 ≤ worst) (bounded : ∀ r ∈ returns, -worst ≤ r) :
    computeCvar returns confidence ≤ worst := by
  by_cases nonempty : returns = []
  · subst nonempty
    exact nonneg
  · rw [computeCvar, if_neg nonempty]
    dsimp only
    have some_returns := List.length_pos_of_ne_nil nonempty
    have length := (sortOn_perm id returns).length_eq
    rw [length]
    generalize taken : (sortOn id returns).take (max 1 (tailCount confidence returns.length)) = tail
    have some_taken : 0 < tail.length := by
      rw [← taken, List.length_take]
      omega
    have least : ∀ r ∈ tail, -worst ≤ r := by
      intro r member
      rw [← taken] at member
      exact bounded r ((mem_sortOn id).mp (List.mem_of_mem_take member))
    rw [lossOf_eq]
    apply max_le _ nonneg
    rw [neg_le, le_div_iff₀ (by exact_mod_cast some_taken), mul_comm, ← nsmul_eq_mul]
    exact List.card_nsmul_le_sum tail (-worst) least

end TailLosses

/-- The value at risk is lost on no more days than the tail has, and the expected shortfall is between it and the
worst loss; neither depends on the order of the days. -/
theorem tail_losses (returns : List Decimal) (confidence : Decimal) :
    0 ≤ computeVar returns confidence ∧ computeVar returns confidence ≤ computeCvar returns confidence ∧
      returns.countP (· < -computeVar returns confidence) ≤ tailCount confidence returns.length ∧
      (0 < computeVar returns confidence → min (tailCount confidence returns.length) (returns.length - 1) <
        returns.countP (· ≤ -computeVar returns confidence)) ∧
      (∀ worst, 0 ≤ worst → (∀ r ∈ returns, -worst ≤ r) → computeCvar returns confidence ≤ worst) ∧
      ∀ other, other.Perm returns → computeVar other confidence = computeVar returns confidence ∧
        computeCvar other confidence = computeCvar returns confidence := by
  refine ⟨computeVar_nonneg confidence returns, computeVar_le_computeCvar confidence returns, ?_, ?_,
    fun worst => computeCvar_le confidence, ?_⟩
  · by_cases nonempty : returns = []
    · subst nonempty
      exact Nat.zero_le _
    · obtain ⟨i, inside, place, same⟩ := computeVar_eq confidence nonempty
      rw [same, ← (sortOn_perm id returns).countP_eq]
      calc (sortOn id returns).countP (· < -lossOf (sortOn id returns)[i])
          ≤ (sortOn id returns).countP (· < (sortOn id returns)[i]) := by
            apply List.countP_mono_left
            intro r _ below
            rw [decide_eq_true_iff] at below ⊢
            apply below.trans_le
            rw [lossOf_eq, neg_le]
            exact le_max_left _ _
        _ ≤ i := countP_lt_le (sortOn_sorted id returns) inside
        _ ≤ tailCount confidence returns.length := by omega
  · intro some_lost
    have nonempty : returns ≠ [] := by
      rintro rfl
      exact lt_irrefl _ some_lost
    obtain ⟨i, inside, place, same⟩ := computeVar_eq confidence nonempty
    rw [same] at some_lost ⊢
    have lost : lossOf (sortOn id returns)[i] = -(sortOn id returns)[i] := by
      rw [lossOf] at some_lost ⊢
      split at some_lost
      · rename_i below
        rw [if_pos below]
      · exact absurd some_lost (lt_irrefl _)
    rw [lost, neg_neg, ← place, ← (sortOn_perm id returns).countP_eq]
    exact lt_countP_le (sortOn_sorted id returns) inside
  · intro other same
    have sorted : sortOn id other = sortOn id returns :=
      ((sortOn_perm id other).trans (same.trans (sortOn_perm id returns).symm)).eq_of_pairwise
        (fun _ _ _ _ => le_antisymm) (sortOn_sorted id other) (sortOn_sorted id returns)
    rw [computeVar, computeVar, computeCvar, computeCvar, sorted]
    refine ⟨rfl, ?_⟩
    by_cases nonempty : returns = []
    · rw [if_pos nonempty, if_pos (by rw [nonempty] at same; exact same.eq_nil)]
    · rw [if_neg nonempty, if_neg fun empty => nonempty (by rw [empty] at same; exact same.symm.eq_nil)]

end MiniHedge.Backtesting
