import MiniHedge.FeeAccounting.Service
import MiniHedge.Library.Transition

/-! How the high-water mark moves from one call to the next.

A crystallization stores the NAV of the latest accrual, whatever the mark was.
In the runs whose steps are `Raises` the mark never falls.
-/

set_option autoImplicit false

namespace MiniHedge.FeeAccounting

open MiniHedge.Python MiniHedge.Library

/-! ## Calls in turn -/

inductive FeeStep where
  | accrue (call : FeeCall) (nav : Decimal) (ties : Ties)
  | crystallize (call : FeeCall) (ties : Ties)
  | saveSchedules (schedules : List FeeScheduleRecord)
  deriving DecidableEq, Repr

/-- The NAV of a crystallization that has charged a performance fee. -/
structure Charge where
  portfolioId : String
  shareClass : String
  nav : Decimal
  deriving DecidableEq, Repr

structure FeeBooks where
  tables : FeeTables := {}
  charges : List Charge := []
  deriving DecidableEq, Repr

namespace FeeBooks

variable (s : FeeBooks)

/-- Some performance fee of the class has not been crystallized before. -/
def ChargesPerformance (call : FeeCall) : Prop :=
  ∃ a ∈ s.tables.classAccruals call, a.feeType = .performance ∧ a.status = .accrued

instance (call : FeeCall) : Decidable (s.ChargesPerformance call) :=
  inferInstanceAs (Decidable (∃ a ∈ s.tables.classAccruals call, _))

/-- What the crystallization charges, with the accrual that it takes its NAV from. -/
def charge (call : FeeCall) (latest : FeeAccrualRecord) : List Charge :=
  if s.ChargesPerformance call then [⟨call.portfolioId, call.shareClass, latest.navBasis⟩] else []

def crystallize (call : FeeCall) (ties : Ties) : FeeBooks :=
  match s.tables.crystallizeFees call ties, s.tables.basis call ties with
  | .ok tables, .ok (some latest) => ⟨tables, s.charges ++ s.charge call latest⟩
  | .ok tables, _ => ⟨tables, s.charges⟩
  | .error _, _ => s

def step : FeeStep → FeeBooks
  | .accrue call nav ties => { s with tables := (s.tables.accrueDailyFees call nav ties).1 }
  | .crystallize call ties => s.crystallize call ties
  | .saveSchedules schedules => { s with tables := { s.tables with schedules } }

def system : System FeeBooks FeeStep where
  step s step := some (s.step step)

/-- The marks that `get_latest` may answer. -/
def InForce (portfolioId shareClass : String) (r : HighWaterMarkRecord) : Prop :=
  ∃ tie, s.tables.getLatest portfolioId shareClass tie = some r

/-- What is to hold of an earlier and a later moment. -/
structure Risen (s s' : FeeBooks) : Prop where
  rises : ∀ portfolioId shareClass r r', s.InForce portfolioId shareClass r →
    s'.InForce portfolioId shareClass r' → r.hwmNav ≤ r'.hwmNav
  stays : ∀ portfolioId shareClass r, s.InForce portfolioId shareClass r →
    ∃ r', s'.InForce portfolioId shareClass r'
  charged : ∀ c ∈ s'.charges, ∀ r', s'.InForce c.portfolioId c.shareClass r' → c.nav ≤ r'.hwmNav

/-- The mark that is stored is later than those that are there, and not below them. -/
def Raises (s : FeeBooks) : FeeStep → Prop
  | .crystallize call ties =>
    match s.tables.basis call ties with
    | .ok (some latest) => ∀ r ∈ s.tables.marksOf call.portfolioId call.shareClass,
        r.hwmDate.toordinal < call.businessDate.toordinal ∧ r.hwmNav ≤ latest.navBasis
    | _ => True
  | .accrue .. | .saveSchedules _ => True

instance (s : FeeBooks) (step : FeeStep) : Decidable (s.Raises step) :=
  match step with
  | .crystallize call ties =>
    match taken : s.tables.basis call ties with
    | .ok (some latest) =>
      decidable_of_iff (∀ r ∈ s.tables.marksOf call.portfolioId call.shareClass,
        r.hwmDate.toordinal < call.businessDate.toordinal ∧ r.hwmNav ≤ latest.navBasis)
        (by simp [Raises, taken])
    | .ok none | .error _ => isTrue (by simp [Raises, taken])
  | .accrue .. | .saveSchedules _ => isTrue trivial

/-! ## Invariants -/

/-- Marks that are stored one after the other, of one portfolio and class. -/
def Increasing (r r' : HighWaterMarkRecord) : Prop :=
  r.portfolioId = r'.portfolioId → r.shareClass = r'.shareClass →
    r.hwmDate.toordinal < r'.hwmDate.toordinal ∧ r.hwmNav ≤ r'.hwmNav

/-- The NAV of an accrual is what its column keeps. -/
def Cents (tables : FeeTables) : Prop := ∀ a ∈ tables.accruals, OnGrid 2 a.navBasis

structure Kept : Prop where
  cents : Cents s.tables
  increasing : s.tables.marks.Pairwise Increasing
  charged : ∀ c ∈ s.charges, ∃ r ∈ s.tables.marksOf c.portfolioId c.shareClass, c.nav ≤ r.hwmNav

section Marks

variable {s} {s' : FeeBooks} {portfolioId shareClass : String} {r r' : HighWaterMarkRecord}

theorem InForce.mem (inForce : s.InForce portfolioId shareClass r) :
    r ∈ s.tables.marksOf portfolioId shareClass ∧
      ∀ other ∈ s.tables.marksOf portfolioId shareClass,
        other.hwmDate.toordinal ≤ r.hwmDate.toordinal := by
  obtain ⟨tie, found⟩ := inForce
  exact mem_latestRows.mp (mem_of_latestRow found)

theorem mem_marksOf : r ∈ s.tables.marksOf portfolioId shareClass ↔
    r ∈ s.tables.marks ∧ r.portfolioId = portfolioId ∧ r.shareClass = shareClass := by
  simp [FeeTables.marksOf]

/-- No mark is above the one in force. -/
theorem Kept.le_inForce (kept : s.Kept) (inForce : s.InForce portfolioId shareClass r')
    (member : r ∈ s.tables.marksOf portfolioId shareClass) : r.hwmNav ≤ r'.hwmNav := by
  obtain ⟨member', last⟩ := inForce.mem
  obtain ⟨stored, portfolio, class_⟩ := mem_marksOf.mp member
  obtain ⟨stored', portfolio', class_'⟩ := mem_marksOf.mp member'
  rcases pairwise_cases kept.increasing stored stored' with rfl | before | after
  · exact le_refl _
  · exact (before (portfolio.trans portfolio'.symm) (class_.trans class_'.symm)).2
  · have earlier := (after (portfolio'.trans portfolio.symm) (class_'.trans class_.symm)).1
    exact absurd (last r member) (not_le.mpr earlier)

/-- Once a mark is stored, there is one in force. -/
theorem inForce_of_mem (member : r ∈ s.tables.marksOf portfolioId shareClass) :
    ∃ r', s.InForce portfolioId shareClass r' := by
  cases found : s.tables.getLatest portfolioId shareClass 0 with
  | some r' => exact ⟨r', 0, found⟩
  | none =>
    rw [latestRow_eq_none_iff.mp found] at member
    cases member

/-- Marks that are only added to never fall. -/
theorem Kept.risen (kept : s'.Kept) (grown : s.tables.marks <+: s'.tables.marks) : s.Risen s' where
  rises portfolioId shareClass r r' inForce inForce' := by
    obtain ⟨member, -⟩ := inForce.mem
    obtain ⟨stored, named⟩ := mem_marksOf.mp member
    exact kept.le_inForce inForce' (mem_marksOf.mpr ⟨grown.subset stored, named⟩)
  stays portfolioId shareClass r inForce := by
    obtain ⟨member, -⟩ := inForce.mem
    obtain ⟨stored, named⟩ := mem_marksOf.mp member
    exact inForce_of_mem (mem_marksOf.mpr ⟨grown.subset stored, named⟩)
  charged c member r' inForce' := by
    obtain ⟨r, stored, above⟩ := kept.charged c member
    exact le_trans above (kept.le_inForce inForce' stored)

end Marks

/-! ## Steps -/

section Steps

variable {s} {call : FeeCall} {ties : Ties}

theorem crystallize_eq : s.crystallize call ties =
    match s.tables.basis call ties with
    | .ok (some latest) => ⟨(s.tables.crystallizeAccruals call).insertMark (FeeTables.newMark call latest
        (s.tables.getLatest call.portfolioId call.shareClass ties.mark)),
        s.charges ++ s.charge call latest⟩
    | .ok none | .error _ => s := by
  rw [crystallize, FeeTables.crystallizeFees_eq]
  cases s.tables.basis call ties with
  | error e => rfl
  | ok taken => cases taken <;> rfl

theorem Cents.insertAccrual {tables : FeeTables} (cents : Cents tables) (a : FeeAccrualRecord) :
    Cents (tables.insertAccrual a) := by
  intro b member
  rcases List.mem_append.mp member with before | last
  · exact cents b before
  · rw [List.mem_singleton.mp last]
    exact onGrid_numeric 2 a.navBasis

theorem Cents.updateStatus {tables : FeeTables} (cents : Cents tables) (id : Nat)
    (status : AccrualStatus) : Cents (tables.updateStatus id status) := by
  intro b member
  obtain ⟨a, inside, rfl⟩ := List.mem_map.mp member
  split
  · exact cents a inside
  · exact cents a inside

theorem Cents.crystallizeAccruals {tables : FeeTables} (cents : Cents tables) :
    Cents (tables.crystallizeAccruals call) := by
  unfold FeeTables.crystallizeAccruals
  induction (tables.classAccruals call).filter (·.status = .accrued) generalizing tables with
  | nil => exact cents
  | cons a rest ih => exact ih (cents.updateStatus a.id .crystallized)

theorem Cents.accrueDailyFees {tables : FeeTables} (cents : Cents tables) (nav : Decimal) :
    Cents (tables.accrueDailyFees call nav ties).1 := by
  unfold FeeTables.accrueDailyFees
  split
  · exact cents
  · dsimp only
    split
    · exact (cents.insertAccrual _).insertAccrual _
    · exact cents.insertAccrual _

theorem accrueDailyFees_marks (tables : FeeTables) (nav : Decimal) :
    (tables.accrueDailyFees call nav ties).1.marks = tables.marks := by
  unfold FeeTables.accrueDailyFees
  split
  · rfl
  · dsimp only
    split <;> rfl

/-- The accrual of the basis is one of the class. -/
theorem basis_mem {latest : FeeAccrualRecord} (taken : s.tables.basis call ties = .ok (some latest)) :
    latest ∈ s.tables.accruals := by
  unfold FeeTables.basis at taken
  split at taken
  · cases taken
  · split at taken
    · cases taken
    · cases taken
    · have member := (mem_latestRows.mp (mem_of_latestRow (Except.ok.inj taken))).1
      exact (List.mem_filter.mp (List.mem_filter.mp member).1).1

theorem Kept.crystallize (kept : s.Kept) (raises : s.Raises (.crystallize call ties)) :
    (s.crystallize call ties).Kept := by
  rw [crystallize_eq]
  split
  · rename_i latest taken
    simp only [Raises, taken] at raises
    have cents : numeric 2 latest.navBasis = latest.navBasis :=
      (kept.cents latest (basis_mem taken)).numeric_eq
    refine ⟨kept.cents.crystallizeAccruals, ?_, ?_⟩
    · simp only [FeeTables.insertMark, FeeTables.crystallizeAccruals_marks]
      refine List.pairwise_append.mpr ⟨kept.increasing, List.pairwise_singleton _ _, ?_⟩
      intro r stored new only portfolio class_
      obtain rfl := List.mem_singleton.mp only
      obtain ⟨later, above⟩ := raises r (mem_marksOf.mpr ⟨stored, portfolio, class_⟩)
      exact ⟨later, le_of_le_of_eq above cents.symm⟩
    · intro c member
      have grown : ∀ mark, ∀ r ∈ s.tables.marksOf c.portfolioId c.shareClass,
          r ∈ ((s.tables.crystallizeAccruals call).insertMark mark).marksOf c.portfolioId
            c.shareClass := by
        intro mark r inside
        simp only [FeeTables.marksOf, FeeTables.insertMark, FeeTables.crystallizeAccruals_marks,
          List.filter_append, List.mem_append]
        exact .inl inside
      rcases List.mem_append.mp member with before | new
      · obtain ⟨r, stored, above⟩ := kept.charged c before
        exact ⟨r, grown _ r stored, above⟩
      · unfold charge at new
        split at new
        · rw [List.mem_singleton.mp new]
          refine ⟨_, List.mem_filter.mpr ⟨List.mem_append_right _ (List.mem_singleton.mpr rfl),
            by simp [FeeTables.newMark, HighWaterMarkRecord.columns]⟩, le_of_eq cents.symm⟩
        · cases new
  · exact kept
  · exact kept

theorem Kept.step (kept : s.Kept) {label : FeeStep} (raises : s.Raises label) :
    (s.step label).Kept := by
  cases label with
  | accrue call nav ties =>
    refine ⟨kept.cents.accrueDailyFees nav, ?_, ?_⟩
    · rw [FeeBooks.step, accrueDailyFees_marks]
      exact kept.increasing
    · simp only [FeeBooks.step, FeeTables.marksOf, accrueDailyFees_marks]
      exact kept.charged
  | crystallize call ties => exact kept.crystallize raises
  | saveSchedules schedules => exact ⟨kept.cents, kept.increasing, kept.charged⟩

theorem marks_step (s : FeeBooks) (label : FeeStep) :
    s.tables.marks <+: (s.step label).tables.marks := by
  cases label with
  | accrue call nav ties =>
    exact ⟨[], by rw [List.append_nil, FeeBooks.step, accrueDailyFees_marks]⟩
  | crystallize call ties =>
    rw [FeeBooks.step, crystallize_eq]
    split
    · simp [FeeTables.insertMark]
    · exact List.prefix_refl _
    · exact List.prefix_refl _
  | saveSchedules schedules => exact List.prefix_refl _

/-- In runs whose steps are conditioned, the mark of a later moment is not below that of
an earlier one, nor below the NAV of a crystallization that charged a performance fee. -/
theorem risen_of_raises {schedules : List FeeScheduleRecord} {earlier later : List FeeStep}
    {s' : FeeBooks}
    (raises : system.Along Raises ⟨{ schedules }, []⟩ (earlier ++ later))
    (ran : system.run ⟨{ schedules }, []⟩ earlier = some s) (ran' : system.run s later = some s') :
    s.Risen s' := by
  have kept : ∀ s label next, Kept s → Raises s label → system.step s label = some next →
      Kept next := by
    rintro s label next kept raises ⟨⟩
    exact kept.step raises
  have initial : Kept ⟨{ schedules }, []⟩ := ⟨by simp [Cents], .nil, by simp⟩
  have whole : system.run ⟨{ schedules }, []⟩ (earlier ++ later) = some s' := by
    rw [System.run_append, ran]
    exact ran'
  have grows : ∀ t label next, s.tables.marks <+: t.tables.marks → system.step t label = some next →
      s.tables.marks <+: next.tables.marks := by
    rintro t label next grown ⟨⟩
    exact grown.trans (marks_step t label)
  have grown := System.invariant_run grows ran' (List.prefix_refl _)
  exact (System.invariant_along kept raises whole initial).risen grown

end Steps

/-! ## Two crystallizations -/

section Quarters

def quarterly : FeeScheduleRecord :=
  ⟨"alpha", "default", 200, 20, 0, "quarterly"⟩

def march : CivilDate := ⟨2026, 3, 31, by decide, by decide, by decide⟩

def june : CivilDate := ⟨2026, 6, 30, by decide, by decide, by decide⟩

/-- The fees of the day are accrued and crystallized. -/
def quarterEnd (day : CivilDate) (nav : Decimal) : List FeeStep :=
  [.accrue ⟨"p", "alpha", day, "default"⟩ nav {}, .crystallize ⟨"p", "alpha", day, "default"⟩ {}]

theorem risen_of_risingNav :
    ∃ s s', system.run ⟨{ schedules := [quarterly] }, []⟩ (quarterEnd march 100) = some s ∧
      system.run s (quarterEnd june 110) = some s' ∧ s'.charges = [⟨"p", "default", 110⟩] ∧
      s.Risen s' := by
  have raises : system.Along Raises ⟨{ schedules := [quarterly] }, []⟩
      (quarterEnd march 100 ++ quarterEnd june 110) := by decide +kernel
  exact ⟨_, _, rfl, rfl, by decide +kernel, risen_of_raises raises rfl rfl⟩

/-- The NAV has fallen, and so does the mark. -/
theorem mark_falls :
    ∃ s s', system.run ⟨{ schedules := [quarterly] }, []⟩ (quarterEnd march 100) = some s ∧
      system.run s (quarterEnd june 90) = some s' ∧ ¬ s.Risen s' := by
  refine ⟨_, _, rfl, rfl, fun risen => ?_⟩
  have lower := risen.rises "p" "default" ⟨"p", "default", march, 100, 100⟩
    ⟨"p", "default", june, 90, 100⟩ ⟨0, by decide +kernel⟩ ⟨0, by decide +kernel⟩
  revert lower
  decide +kernel

end Quarters

end FeeBooks

end MiniHedge.FeeAccounting
