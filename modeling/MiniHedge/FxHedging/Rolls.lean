import MiniHedge.FxHedging.Rolling

/-! What calls to close and to roll one open forward leave behind.

The forward may be closed once, as long as no other call closes it between a
check and the write that it allows; a roll is half done from its second write to
its third.
-/

set_option autoImplicit false

namespace MiniHedge.FxHedging

open MiniHedge.Python MiniHedge.Library

/-! ## What is to hold -/

section Claim

variable (id : Nat) (original : FXForwardRecord) (s : Forwards)

def statusOf : Option FXForwardStatus := (getById s.table id).map (·.status)

def Unchanged : Prop :=
  getById s.table id = some original ∧ successors s.table id = [] ∧ s.realized = []

def HasClosed : Prop :=
  statusOf id s = some .closed ∧ successors s.table id = [] ∧ s.realized.length ≤ 1

def HasRolled : Prop :=
  statusOf id s = some .rolled ∧
    (∃ new, successors s.table id = [new] ∧ new.status = .opened ∧
      new.notional = original.notional ∧ new.direction = original.direction) ∧
    s.realized.length ≤ 1

/-- The forward is open as it was, or closed, or rolled to one new forward; its P&L is realized
once at most. -/
def Settled : Prop := Unchanged id original s ∨ HasClosed id s ∨ HasRolled id original s

/-- The forward is open, no other row has its id, none replaces it, and no call has begun. -/
structure Begins (st : Processes.State Forwards ForwardCaller) : Prop where
  row : getById st.shared.table id = some original
  opened : original.status = .opened
  stored : original.columns = original
  first : successors st.shared.table id = []
  unrealized : st.shared.realized = []
  called : ∀ p ∈ st.processes, p.stage = .called

end Claim

def ForwardCaller.Done (p : ForwardCaller) : Prop := p.stage = .returned ∨ p.stage = .raised

instance (p : ForwardCaller) : Decidable p.Done := inferInstanceAs (Decidable (_ ∨ _))

/-! ## The condition -/

/-- What a turn may do, given the stored status: a forward is closed only while it is open, and
nothing fails between its status of a roll and the insert of the new forward. -/
def CallStage.Allows (status : Option FXForwardStatus) (ending : Ending) : CallStage → Prop
  | .checked .. => ending = .raisedBefore ∨ status = some .opened
  | .rolling _ => ending ≠ .raisedAfter
  | .replacing _ => ending ≠ .raisedBefore
  | _ => True

def Undisturbed (id : Nat) (s : Forwards) (_ : List ForwardCaller) (p : ForwardCaller)
    (input : ForwardInput) : Prop :=
  p.stage.Allows (statusOf id s) input.ending

instance (status : Option FXForwardStatus) (ending : Ending) :
    (stage : CallStage) → Decidable (stage.Allows status ending)
  | .checked .. => inferInstanceAs (Decidable (_ ∨ _))
  | .rolling _ | .replacing _ => inferInstanceAs (Decidable (_ ≠ _))
  | .called | .found _ | .priced .. | .closed _ | .inserted | .returned | .raised => isTrue trivial

instance (id : Nat) (s : Forwards) (others : List ForwardCaller) (p : ForwardCaller)
    (input : ForwardInput) : Decidable (Undisturbed id s others p input) :=
  inferInstanceAs (Decidable (p.stage.Allows _ _))

/-! ## The invariant -/

section Invariant

variable (id : Nat) (original : FXForwardRecord)

/-- The forward is marked as rolled, and nothing replaces it yet. -/
def HalfRolled (s : Forwards) : Prop :=
  statusOf id s = some .rolled ∧ successors s.table id = [] ∧ s.realized.length ≤ 1

instance (s : Forwards) : Decidable (HalfRolled id s) := inferInstanceAs (Decidable (_ ∧ _ ∧ _))

def SameTerms (fwd : FXForwardRecord) : Prop :=
  fwd.notional = original.notional ∧ fwd.direction = original.direction

structure Kept (s : Forwards) : Prop where
  terms : ∀ fwd, getById s.table id = some fwd → SameTerms original fwd
  phase : Settled id original s ∨ HalfRolled id s

/-- What a call knows of the forward, from what it has read and done. -/
structure Knows (s : Forwards) (p : ForwardCaller) : Prop where
  terms : ∀ record ∈ p.stage.record, SameTerms original record
  closed : ∀ record, p.stage = .closed record ∨ p.stage = .rolling record → HasClosed id s
  half : ∀ record, p.stage = .replacing record → HalfRolled id s

/-- Only one call may have closed the forward. -/
def Apart (p q : ForwardCaller) : Prop := ¬ (p.stage.Active ∧ q.stage.Active)

variable {id original} {s : Forwards} {p q : ForwardCaller}

theorem Apart.symm (apart : Apart p q) : Apart q p := fun both => apart ⟨both.2, both.1⟩

theorem Knows.of_quiet (terms : ∀ record ∈ p.stage.record, SameTerms original record)
    (quiet : ¬ p.stage.Active) : Knows id original s p where
  terms := terms
  closed := by
    rintro record (own | own)
    · exact absurd (own ▸ trivial) quiet
    · exact absurd (own ▸ trivial) quiet
  half record own := absurd (own ▸ trivial) quiet

/-- A call that has closed the forward finds it closed or rolled. -/
theorem Knows.status (knows : Knows id original s p) (active : p.stage.Active) :
    statusOf id s = some .closed ∨ statusOf id s = some .rolled := by
  cases stage : p.stage with
  | closed record => exact .inl (knows.closed record (.inl stage)).1
  | rolling record => exact .inl (knows.closed record (.inr stage)).1
  | replacing record => exact .inr (knows.half record stage).1
  | called | found | priced | checked | inserted | returned | raised =>
    rw [stage] at active
    exact active.elim

/-- The forward has not been closed while it is open. -/
theorem Kept.unchanged (kept : Kept id original s) (opened : statusOf id s = some .opened) :
    Unchanged id original s := by
  rcases kept.phase with (unchanged | closed | rolled) | half
  · exact unchanged
  · exact nomatch opened.symm.trans closed.1
  · exact nomatch opened.symm.trans rolled.1
  · exact nomatch opened.symm.trans half.1

theorem statusOf_updateStatus {status old : FXForwardStatus} (found : statusOf id s = some old)
    (closeRate closeSpot : Option Decimal) (closedAt : Option Datetime)
    (realizedPnl : Option Decimal) (realized : List Decimal) :
    statusOf id ⟨updateStatus s.table id status closeRate closeSpot closedAt realizedPnl, realized⟩ =
      some status := by
  unfold statusOf at *
  rw [getById_updateStatus]
  obtain ⟨fwd, read, -⟩ := Option.map_eq_some_iff.mp found
  rw [read]
  rfl

theorem terms_updateStatus (terms : ∀ fwd, getById s.table id = some fwd → SameTerms original fwd)
    (status : FXForwardStatus) (closeRate closeSpot : Option Decimal) (closedAt : Option Datetime)
    (realizedPnl : Option Decimal) : ∀ fwd,
      getById (updateStatus s.table id status closeRate closeSpot closedAt realizedPnl) id =
        some fwd → SameTerms original fwd := by
  intro fwd found
  rw [getById_updateStatus] at found
  obtain ⟨old, read, rfl⟩ := Option.map_eq_some_iff.mp found
  exact terms old read

theorem statusOf_insert {old : FXForwardStatus} (found : statusOf id s = some old)
    (new : FXForwardRecord) : statusOf id { s with table := insert s.table new } = some old := by
  unfold statusOf at *
  obtain ⟨fwd, read, same⟩ := Option.map_eq_some_iff.mp found
  rw [getById_insert read, Option.map_some, same]

/-! ### The three writes -/

theorem Unchanged.close (unchanged : Unchanged id original s) (closeRate closeSpot : Option Decimal)
    (closedAt : Option Datetime) (realizedPnl : Option Decimal) (amount : Decimal) :
    HasClosed id
      ⟨updateStatus s.table id .closed closeRate closeSpot closedAt realizedPnl,
        s.realized ++ [amount]⟩ := by
  obtain ⟨row, first, unrealized⟩ := unchanged
  have status : statusOf id s = some original.status := by rw [statusOf, row, Option.map_some]
  refine ⟨statusOf_updateStatus status _ _ _ _ _, successors_updateStatus first _ _ _ _ _, ?_⟩
  rw [unrealized]
  exact le_rfl

theorem HasClosed.roll (closed : HasClosed id s) :
    HalfRolled id { s with table := updateStatus s.table id .rolled } :=
  ⟨statusOf_updateStatus closed.1 _ _ _ _ _, successors_updateStatus closed.2.1 _ _ _ _ _, closed.2.2⟩

theorem HalfRolled.replace (half : HalfRolled id s) (stored : original.columns = original)
    {new : FXForwardRecord} (rolled : new.rollFromId = some id) (opened : new.status = .opened)
    (terms : SameTerms original new) :
    HasRolled id original { s with table := insert s.table new } := by
  obtain ⟨marked, first, once⟩ := half
  have added : successors (insert s.table new) id = [new.columns] := by
    rw [successors_insert rolled, first]
    rfl
  have same : numeric 4 original.notional = original.notional :=
    congrArg FXForwardRecord.notional stored
  have amount : numeric 4 new.notional = original.notional := by rw [terms.1, same]
  exact ⟨statusOf_insert marked new, ⟨new.columns, added, opened, amount, terms.2⟩, once⟩

variable {s' : Forwards} {p' : ForwardCaller} {input : ForwardInput} {others : List ForwardCaller}

/-- A turn that meets the condition keeps what is known of the forward. -/
theorem advance_keeps (stored : original.columns = original) (kept : Kept id original s)
    (own : Knows id original s p)
    (rest : ∀ q ∈ others, Knows id original s q ∧ Apart p q)
    (undisturbed : Undisturbed id s others p input)
    (advanced : advance id s p input = some (s', p')) :
    Kept id original s' ∧ Knows id original s' p' ∧
      ∀ q ∈ others, Knows id original s' q ∧ Apart p' q := by
  have alone : p.stage.Active → ∀ q ∈ others, ¬ q.stage.Active :=
    fun active q member other => (rest q member).2 ⟨active, other⟩
  have follow : (∀ q ∈ others, ¬ q.stage.Active) →
      ∀ q ∈ others, Knows id original s' q ∧ Apart p' q := fun quiet q member =>
    ⟨.of_quiet (rest q member).1.terms (quiet q member), fun both => quiet q member both.2⟩
  have moved := turned advanced
  generalize stage : p'.stage = next at moved
  cases moved with
  | waits quiet read failed =>
    -- nothing is written, and what the call knows was true before
    have mine : ¬ p'.stage.Active := stage ▸ quiet
    refine ⟨kept, .of_quiet (fun record held => ?_) mine, fun q member =>
      ⟨(rest q member).1, fun both => mine both.1⟩⟩
    rcases read record (stage ▸ held) with before | now
    · exact own.terms record before
    · exact kept.terms record now
  | @goesOn record before =>
    -- the forward is closed, and the call goes on to mark it
    have closed := own.closed record (.inl before)
    refine ⟨kept, ⟨fun r held => own.terms r ?_, fun _ _ => closed, fun _ half => ?_⟩,
      follow (alone (by rw [before]; trivial))⟩
    · rw [stage] at held
      rw [before]
      exact held
    · rw [stage] at half
      cases half
  | @closes record read closeRate _ passed effective after =>
    have allowed : input.ending = .raisedBefore ∨ statusOf id s = some .opened := by
      unfold Undisturbed at undisturbed
      rwa [passed] at undisturbed
    have status := allowed.resolve_left effective
    -- no other call has closed the forward, or it would not be open
    have closed := (kept.unchanged status).close (some closeRate) (some p.call.closeSpot)
      (some input.now) (some (realizedPnl read closeRate)) (realizedPnl read closeRate)
    have quiet : ∀ q ∈ others, ¬ q.stage.Active := by
      intro q member active
      rcases (rest q member).1.status active with other | other
      · exact nomatch status.symm.trans other
      · exact nomatch status.symm.trans other
    refine ⟨⟨terms_updateStatus kept.terms _ _ _ _ _, .inl (.inr (.inl closed))⟩, ?_, follow quiet⟩
    rcases after with rfl | rfl
    · refine ⟨fun r held => own.terms r ?_, fun _ _ => closed, fun _ half => ?_⟩
      · rw [stage] at held
        rw [passed]
        exact held
      · rw [stage] at half
        cases half
    · exact .of_quiet (stage ▸ fun r held => absurd held (Option.not_mem_none r))
        (stage ▸ not_false)
  | @rolls record _ before after =>
    -- the forward is marked as rolled, and its replacement is to come
    have half := (own.closed record (.inr before)).roll
    refine ⟨⟨terms_updateStatus kept.terms _ _ _ _ _, .inr half⟩, ?_,
      follow (alone (by rw [before]; trivial))⟩
    rcases after with rfl | ⟨-, rfl⟩
    · refine ⟨fun r held => own.terms r ?_, fun _ closed => ?_, fun _ _ => half⟩
      · rw [stage] at held
        rw [before]
        exact held
      · rw [stage] at closed
        rcases closed with closed | closed
        · cases closed
        · cases closed
    · exact .of_quiet (stage ▸ fun r held => absurd held (Option.not_mem_none r))
        (stage ▸ not_false)
  | @replaces record new _ before rolled status notional direction after =>
    have half := own.half record before
    have terms : SameTerms original record := own.terms record (by rw [before]; rfl)
    -- with the replacement the roll is whole
    have done := half.replace stored rolled status
      ⟨notional.trans terms.1, direction.trans terms.2⟩
    have mine : p'.stage.record = none ∧ ¬ p'.stage.Active := by
      rcases after with rfl | rfl
      · exact stage ▸ ⟨rfl, not_false⟩
      · exact stage ▸ ⟨rfl, not_false⟩
    refine ⟨⟨fun fwd found => ?_, .inl (.inr (.inr done))⟩,
      .of_quiet (fun r held => absurd held (mine.1 ▸ Option.not_mem_none r)) mine.2,
      follow (alone (by rw [before]; trivial))⟩
    obtain ⟨old, read, -⟩ := Option.map_eq_some_iff.mp half.1
    cases (getById_insert read new).symm.trans found
    exact kept.terms _ read

/-! ### Half-done rolls -/

variable (id) in
/-- Whether a forward is marked as rolled that nothing replaces. -/
def halves (s : Forwards) : Int :=
  if statusOf id s = some .rolled ∧ successors s.table id = [] then 1 else 0

def ForwardCaller.half (p : ForwardCaller) : Int :=
  match p.stage with
  | .replacing _ => 1
  | _ => 0

theorem half_of_quiet (quiet : ¬ p.stage.Active) : p.half = 0 := by
  unfold ForwardCaller.half
  split
  · rename_i record stage
    exact absurd (stage ▸ trivial) quiet
  · rfl

theorem halves_of_status {status : FXForwardStatus} (found : statusOf id s = some status)
    (other : status ≠ .rolled) : halves id s = 0 := by
  refine if_neg fun both => other ?_
  exact Option.some.inj (found.symm.trans both.1)

/-- A forward that is half rolled belongs to the call that is about to replace it. -/
theorem advance_halves (own : Knows id original s p) (undisturbed : Undisturbed id s others p input)
    (stored : original.columns = original) (kept : Kept id original s)
    (advanced : advance id s p input = some (s', p')) :
    halves id s' - p'.half = halves id s - p.half := by
  have moved := turned advanced
  generalize stage : p'.stage = next at moved
  unfold Undisturbed at undisturbed
  cases moved with
  | waits quiet read failed =>
    -- a replacement that fails before it is written would leave half a roll
    have mine : p'.half = 0 := half_of_quiet (stage ▸ quiet)
    have before : p.half = 0 := by
      unfold ForwardCaller.half
      split
      · rename_i record replacing
        rw [replacing] at undisturbed
        exact absurd (failed record replacing) undisturbed
      · rfl
    rw [mine, before]
  | @goesOn record before =>
    have mine : p'.half = 0 := by rw [ForwardCaller.half, stage]
    have was : p.half = 0 := by rw [ForwardCaller.half, before]
    rw [mine, was]
  | @closes record read closeRate _ passed effective after =>
    rw [passed] at undisturbed
    have status : statusOf id s = some .opened := undisturbed.resolve_left effective
    have closed := (kept.unchanged status).close (some closeRate) (some p.call.closeSpot)
      (some input.now) (some (realizedPnl read closeRate)) (realizedPnl read closeRate)
    have mine : p'.half = 0 := by
      rcases after with rfl | rfl
      · rw [ForwardCaller.half, stage]
      · rw [ForwardCaller.half, stage]
    have was : p.half = 0 := by rw [ForwardCaller.half, passed]
    rw [halves_of_status closed.1 nofun, halves_of_status status nofun, mine, was]
  | @rolls record _ before after =>
    rw [before] at undisturbed
    have closed := own.closed record (.inr before)
    -- the half that is stored is the one that the call is about to finish
    have half := closed.roll
    have mine : p'.half = 1 := by
      rcases after with rfl | ⟨late, -⟩
      · rw [ForwardCaller.half, stage]
      · exact absurd late undisturbed
    have was : p.half = 0 := by rw [ForwardCaller.half, before]
    rw [halves, if_pos ⟨half.1, half.2.1⟩, halves_of_status closed.1 nofun, mine, was]
    rfl
  | @replaces record new _ before rolled status notional direction after =>
    have half := own.half record before
    have terms : SameTerms original record := own.terms record (by rw [before]; rfl)
    obtain ⟨-, ⟨added, found, -⟩, -⟩ := half.replace stored rolled status
      ⟨notional.trans terms.1, direction.trans terms.2⟩
    have mine : p'.half = 0 := by
      rcases after with rfl | rfl
      · rw [ForwardCaller.half, stage]
      · rw [ForwardCaller.half, stage]
    have was : p.half = 1 := by rw [ForwardCaller.half, before]
    -- the replacement is there, so that no half is left
    have gone : halves id { s with table := insert s.table new } = 0 := by
      refine if_neg fun both => ?_
      rw [found] at both
      exact List.cons_ne_nil _ _ both.2
    rw [gone, halves, if_pos ⟨half.1, half.2.1⟩, mine, was]
    rfl

end Invariant

/-! ## Runs -/

section Runs

variable {id : Nat} {original : FXForwardRecord}
  {st final : Processes.State Forwards ForwardCaller}
  {turns : List (Processes.Turn ForwardInput)}

/-- What every state of such a run keeps. -/
structure Tracked (id : Nat) (original : FXForwardRecord)
    (st : Processes.State Forwards ForwardCaller) : Prop where
  holds : Processes.Holds (Kept id original) (Knows id original) Apart st
  balanced : halves id st.shared - (st.processes.map ForwardCaller.half).sum = 0

theorem sum_half {processes : List ForwardCaller} (quiet : ∀ p ∈ processes, ¬ p.stage.Active) :
    (processes.map ForwardCaller.half).sum = 0 := by
  refine List.sum_eq_zero fun x member => ?_
  obtain ⟨p, inside, rfl⟩ := List.mem_map.mp member
  exact half_of_quiet (quiet p inside)

theorem Begins.tracked (begins : Begins id original st) : Tracked id original st := by
  have status : statusOf id st.shared = some .opened := by
    rw [statusOf, begins.row, Option.map_some, begins.opened]
  have quiet : ∀ p ∈ st.processes, ¬ p.stage.Active := by
    intro p member
    rw [begins.called p member]
    exact not_false
  refine ⟨⟨⟨fun fwd found => ?_, .inl (.inl ⟨begins.row, begins.first, begins.unrealized⟩)⟩,
    fun p member => .of_quiet (fun r held => ?_) (quiet p member),
    List.pairwise_of_forall_mem_list fun p member q _ both => quiet p member both.1⟩, ?_⟩
  · cases begins.row.symm.trans found
    exact ⟨rfl, rfl⟩
  · rw [begins.called p member] at held
    exact absurd held (Option.not_mem_none r)
  · rw [halves_of_status status nofun, sum_half quiet, sub_zero]

theorem tracked_step (stored : original.columns = original)
    {next : Processes.State Forwards ForwardCaller} {turn : Processes.Turn ForwardInput}
    (tracked : Tracked id original st) (met : Processes.When (Undisturbed id) st turn)
    (stepped : (forwardCalls id).system.step st turn = some next) : Tracked id original next where
  holds := Processes.step_keeps (fun _ _ => Apart.symm)
    (fun _ _ _ _ _ _ kept own rest undisturbed advanced =>
      advance_keeps stored kept own rest undisturbed advanced) tracked.holds met stepped
  balanced := (Processes.step_balance
    (fun _ _ _ _ _ _ kept own undisturbed advanced =>
      advance_halves own undisturbed stored kept advanced) tracked.holds met stepped).trans
    tracked.balanced

/-- In every run that meets the condition, once no call is under way the forward is settled. -/
theorem settled_of_undisturbed (begins : Begins id original st)
    (along : (forwardCalls id).system.Along (Processes.When (Undisturbed id)) st turns)
    (ran : (forwardCalls id).system.run st turns = some final)
    (done : ∀ p ∈ final.processes, p.Done) : Settled id original final.shared := by
  have tracked : Tracked id original final := System.invariant_along
    (fun _ _ _ tracked met stepped => tracked_step begins.stored tracked met stepped) along ran
    begins.tracked
  refine tracked.holds.shared.phase.resolve_right fun half => ?_
  -- a half-rolled forward would have a call that is about to replace it
  have quiet : ∀ p ∈ final.processes, ¬ p.stage.Active := by
    intro p member
    rcases done p member with stage | stage
    · rw [stage]
      exact not_false
    · rw [stage]
      exact not_false
  have balanced := tracked.balanced
  rw [halves, if_pos ⟨half.1, half.2.1⟩, sum_half quiet] at balanced
  exact absurd balanced (by decide)

theorem HalfRolled.not_settled {s : Forwards} (opened : original.status = .opened)
    (half : HalfRolled id s) : ¬ Settled id original s := by
  rintro (unchanged | closed | ⟨-, ⟨new, found, -⟩, -⟩)
  · have status := half.1
    rw [statusOf, unchanged.1, Option.map_some, opened] at status
    cases status
  · exact nomatch half.1.symm.trans closed.1
  · exact List.cons_ne_nil _ _ (found.symm.trans half.2.1)

theorem not_settled_of_twice {s : Forwards} (twice : 1 < s.realized.length) :
    ¬ Settled id original s := by
  rintro (unchanged | closed | rolled)
  · rw [unchanged.2.2] at twice
    exact absurd twice (by decide)
  · exact absurd closed.2.2 (not_le.mpr twice)
  · exact absurd rolled.2.2 (not_le.mpr twice)

end Runs

/-! ## Calls on one forward -/

/-- Dollars sold against euros, to be rolled by each of the callers. -/
def soldDollarsOpen : FXForwardRecord where
  id := 1
  portfolioId := "p1"
  baseCurrency := "USD"
  quoteCurrency := "EUR"
  direction := .sell
  notional := 1000
  contractRate := 9 / 10
  spotAtInception := 9 / 10
  tradeDate := 0
  maturityDate := 30
  status := .opened
  counterparty := none

def rolledBy (callers : Nat) : Processes.State Forwards ForwardCaller where
  shared := { table := [soldDollarsOpen] }
  processes := List.replicate callers { call := .roll 60 (9 / 10) (8 / 10), session := false }

/-- Turns of the callers with these indices, which all return and draw the ids from `id` on. -/
def turnsOf (indices : List Nat) : List (Processes.Turn ForwardInput) :=
  indices.zipIdx.map fun turn =>
    ⟨turn.1, { service := { fx := none, rates := [] }, id := turn.2 + 2 }⟩

theorem begins_rolledBy (callers : Nat) : Begins 1 soldDollarsOpen (rolledBy callers) where
  row := rfl
  opened := rfl
  stored := by decide +kernel
  first := rfl
  unrealized := rfl
  called p member := by rw [List.eq_of_mem_replicate member]

/-- A roll on its own, whose turns all return. -/
theorem roll_settles :
    ∃ final, (forwardCalls 1).system.run (rolledBy 1) (turnsOf (List.replicate 8 0)) = some final ∧
      Settled 1 soldDollarsOpen final.shared := by
  obtain ⟨final, ran⟩ := Option.isSome_iff_exists.mp (by decide +kernel :
    ((forwardCalls 1).system.run (rolledBy 1) (turnsOf (List.replicate 8 0))).isSome)
  have done : ∀ final ∈ (forwardCalls 1).system.run (rolledBy 1) (turnsOf (List.replicate 8 0)),
      ∀ p ∈ final.processes, p.Done := by decide +kernel
  exact ⟨final, ran, settled_of_undisturbed (begins_rolledBy 1) (by decide +kernel) ran
    (done final ran)⟩

/-- The turns of a roll whose insert fails. -/
def insertFails : List (Processes.Turn ForwardInput) :=
  turnsOf (List.replicate 6 0) ++
    [⟨0, { ending := .raisedBefore, service := { fx := none, rates := [] }, id := 9 }⟩]

/-- The turns of two rolls that both pass the check before either closes the forward. -/
def bothRoll : List (Processes.Turn ForwardInput) :=
  turnsOf [0, 1, 0, 1, 0, 1, 0, 1, 0, 1, 0, 1, 0, 1, 0, 1]

/-- A roll that fails leaves no open forward, and two rolls leave two. -/
theorem roll_half_or_twice :
    (∃ final, (forwardCalls 1).system.run (rolledBy 1) insertFails = some final ∧
      (∀ p ∈ final.processes, p.Done) ∧ ¬ Settled 1 soldDollarsOpen final.shared) ∧
    ∃ final, (forwardCalls 1).system.run (rolledBy 2) bothRoll = some final ∧
      (∀ p ∈ final.processes, p.Done) ∧ (successors final.shared.table 1).length = 2 ∧
      ¬ Settled 1 soldDollarsOpen final.shared := by
  have failed : ∃ final ∈ (forwardCalls 1).system.run (rolledBy 1) insertFails,
      (∀ p ∈ final.processes, p.Done) ∧ HalfRolled 1 final.shared := by decide +kernel
  have both : ∃ final ∈ (forwardCalls 1).system.run (rolledBy 2) bothRoll,
      (∀ p ∈ final.processes, p.Done) ∧ (successors final.shared.table 1).length = 2 ∧
        1 < final.shared.realized.length := by decide +kernel
  obtain ⟨one, ranOne, doneOne, half⟩ := failed
  obtain ⟨two, ranTwo, doneTwo, replaced, twice⟩ := both
  exact ⟨⟨one, ranOne, doneOne, half.not_settled rfl⟩,
    two, ranTwo, doneTwo, replaced, not_settled_of_twice twice⟩

end MiniHedge.FxHedging
