import MiniHedge.CapitalAccounts.Conservation
import MiniHedge.CapitalAccounts.OwnershipRuns

/-! The capital of the fund against what the calls of a history have put into it.

The latest rows are those of the latest date of an investor, of all classes. A row
that a subscription or a redemption inserts takes the place of those before it,
but opens with the capital of one row of its own class.
-/

set_option autoImplicit false

namespace MiniHedge.CapitalAccounts

open MiniHedge.Python MiniHedge.Library MiniHedge.Shared
open MiniHedge.CashManagement (Date)

/-! ## The capital of the fund -/

/-- What the latest rows close with in all. -/
def fundCapital (accounts : List CapitalAccountRecord) : Decimal :=
  ((latestByFund accounts).map (·.1.endingCapital)).sum

/-- The capital of the latest rows that a row of the investor for the date takes the place of. -/
def superseded (accounts : List CapitalAccountRecord) (investorId : UUID) (date : Date) : Decimal :=
  (((latestByFund accounts).filter fun (a, _) => a.investorId = investorId ∧ a.effectiveDate < date).map
    (·.1.endingCapital)).sum

/-- What a history has put into the fund. -/
structure Flows where
  contributions : Decimal := 0
  redemptions : Decimal := 0
  pnl : Decimal := 0
  fees : Decimal := 0
  deriving DecidableEq, Repr

def Flows.net (f : Flows) : Decimal := f.contributions - f.redemptions + f.pnl - f.fees

instance : Add Flows where
  add f g := ⟨f.contributions + g.contributions, f.redemptions + g.redemptions, f.pnl + g.pnl,
    f.fees + g.fees⟩

theorem Flows.net_add (f g : Flows) : (f + g).net = f.net + g.net := by
  change f.contributions + g.contributions - (f.redemptions + g.redemptions) + (f.pnl + g.pnl) -
    (f.fees + g.fees) = _
  rw [Flows.net, Flows.net]
  ring

theorem Flows.add_none (f : Flows) : f + {} = f := by
  change (⟨f.contributions + 0, f.redemptions + 0, f.pnl + 0, f.fees + 0⟩ : Flows) = f
  simp only [add_zero]

/-- What the rows of an allocation say that their accounts were allocated. -/
def allocated (rows : List CapitalAccountRecord) : Flows where
  pnl := (rows.map (·.pnlAllocation)).sum
  fees := (rows.map fun a => a.managementFeeAllocation + a.performanceFeeAllocation).sum

/-- What a call puts into the fund when it returns. -/
def CapitalRun.flows (db : Database) (r : CapitalRun) : Flows :=
  match r.call.run r.env r.owner db with
  | .error _ _ => {}
  | .ok _ after =>
    match r.call with
    | .subscription p => { contributions := p.amount }
    | .redemption p => { redemptions := p.amount }
    | .allocation _ => allocated (after.accounts.drop db.accounts.length)

def fundLedger : System (Database × Flows) CapitalRun where
  step := fun (db, flows) r => some (r.result db, flows + r.flows db)

/-! ## Rows that are inserted -/

section Rows

variable {accounts rows : List CapitalAccountRecord} {a : CapitalAccountRecord}

/-- The columns that the capital of the fund depends on. -/
def dated (a : CapitalAccountRecord) : UUID × Date × Decimal :=
  (a.investorId, a.effectiveDate, a.endingCapital)

theorem map_latestByFund (accounts : List CapitalAccountRecord) :
    (latestByFund accounts).map (·.1) = accounts.filter fun a =>
      accounts.all fun b => b.investorId = a.investorId → b.effectiveDate ≤ a.effectiveDate := by
  rw [latestByFund]
  conv_rhs => rw [← List.zipIdx_map_fst 0 accounts, List.filter_map]
  rw [List.zipIdx_map_fst]
  rfl

/-- The ownership of the rows does not matter. -/
theorem fundCapital_congr (same : rows.map dated = accounts.map dated) :
    fundCapital rows = fundCapital accounts := by
  have capital : ∀ rows : List CapitalAccountRecord, fundCapital rows =
      (((rows.map dated).filter fun key => (rows.map dated).all fun other =>
        other.1 = key.1 → other.2.1 ≤ key.2.1).map (·.2.2)).sum := by
    intro rows
    have endings : (latestByFund rows).map (·.1.endingCapital) =
        ((latestByFund rows).map (·.1)).map (·.endingCapital) := by
      rw [List.map_map]
      rfl
    rw [fundCapital, endings, map_latestByFund, List.filter_map, List.map_map]
    simp only [List.all_map]
    rfl
  rw [capital, capital, same]

theorem fundCapital_behind (behind : ∃ b ∈ accounts, b.investorId = a.investorId ∧
    a.effectiveDate < b.effectiveDate) : fundCapital (accounts ++ [a]) = fundCapital accounts := by
  rw [fundCapital, latestByFund_behind (List.forall_mem_singleton.mpr behind), fundCapital]

/-- A row that becomes one of the latest adds its capital, for what it takes the place of. -/
theorem fundCapital_landed
    (reach : ∀ b ∈ accounts, b.investorId = a.investorId → b.effectiveDate ≤ a.effectiveDate) :
    fundCapital (accounts ++ [a]) =
      fundCapital accounts - superseded accounts a.investorId a.effectiveDate + a.endingCapital := by
  have parts := (List.filter_append_perm
    (fun entry : CapitalAccountRecord × Nat => decide (entry.1.investorId = a.investorId ∧
      entry.1.effectiveDate < a.effectiveDate)) (latestByFund accounts)).map (·.1.endingCapital)
  have sums := parts.sum_eq
  rw [List.map_append, List.sum_append] at sums
  rw [fundCapital, latestByFund_landed reach, List.map_append, List.sum_append, List.map_singleton,
    List.sum_singleton, fundCapital, superseded, ← sums]
  simp only [decide_not]
  ring

end Rows

/-! ## The condition -/

/-- The capital that the row of an operation opens with. -/
def Processing.opening (p : Processing) (env : Env) (accounts : List CapitalAccountRecord) : Decimal :=
  ((latestForInvestor accounts p.investorId p.shareClass (env.tie p.notes)).map (·.endingCapital)).getD 0

/-- If the operation inserts a row, nothing raises after it, its amount is whole cents, and the row is
one of the latest and opens with the capital of those that it takes the place of, or it is none of
them and moves nothing. -/
def Processing.Preserves (p : Processing) (type : TransactionType) (env : Env)
    (accounts : List CapitalAccountRecord) : Prop :=
  ¬ Stops env p.notes → (p.entry env type accounts).isSome →
    Uninterrupted env p.notes type ∧ OnGrid 2 p.amount ∧
      if ∃ b ∈ accounts, b.investorId = p.investorId ∧ p.businessDate < b.effectiveDate then p.amount = 0
      else superseded accounts p.investorId p.businessDate = p.opening env accounts

/-- No statement or event of the allocation to these accounts raises. -/
def Finishes (env : Env) (ids : List Nat) : Prop :=
  (∀ id ∈ ids, env.fails (.insertAccount (.allocating id)) = none ∧ Clear env id) ∧
    env.fails (.publishCapital none) = none

/-- The allocation is stopped before its first row; or it finishes, its amounts are whole cents, and it
is for a date after the latest rows. -/
def DailyAllocation.Preserves (d : DailyAllocation) (env : Env) (accounts : List CapitalAccountRecord) :
    Prop :=
  let latest := latestByFund accounts
  env.fails (.latestByFund none) = none → latest ≠ [] →
    (∃ id ∈ (latest.map (·.2)).head?, env.fails (.insertAccount (.allocating id)) ≠ none) ∨
    Finishes env (latest.map (·.2)) ∧ d.Cents ∧ ∀ entry ∈ latest, entry.1.effectiveDate < d.businessDate

def CapitalRun.Preserves (db : Database) (r : CapitalRun) : Prop :=
  match r.call with
  | .subscription p => p.Preserves .subscription r.env db.accounts
  | .redemption p => p.Preserves .redemption r.env db.accounts
  | .allocation d => d.Preserves r.env db.accounts

/-! ## Operations that return -/

section Returns

variable {env : Env} {session : Option Nat} {base : List CapitalAccountRecord} {p : Processing}
  {d : DailyAllocation}

/-- Where nothing raises, the row is inserted and the ownership rewritten. -/
theorem triple_enteredWhole (stored : Stored base) {type : TransactionType} {amount shares : Decimal}
    {movement : UUID → Nat → CashManagement.Movement} (started : ¬ Stops env p.notes)
    (whole : Uninterrupted env p.notes type) {row : CapitalAccountRecord}
    (entered : p.entry env type base = some row.columns) :
    Triple (At base) (insertAccount env session (.processing p.notes) row >>= fun accountId =>
      p.complete env session accountId type amount shares movement)
      (fun _ => At (rewritten session p.businessDate (base ++ [row.columns]))) (fun _ => False) := by
  have after := stored.entered entered
  refine .bind (fun _ => At (base ++ [row.columns])) (triple_insertAccount
    (fun failing => (started (.inr failing)).elim) (fun _ db here => ?_)
    fun failing => (failing whole.account).elim) fun accountId => ?_
  · refine after.commit _ ?_
    change db.accounts ++ [row.columns] = base ++ [row.columns]
    rw [show db.accounts = base from here]
  · exact triple_rewritten after fun interrupted => (interrupted whole).elim

/-- Where the insert of the row raises, the accounts are left. -/
theorem triple_unentered {type : TransactionType} {amount shares : Decimal}
    {movement : UUID → Nat → CashManagement.Movement} {row : CapitalAccountRecord}
    (refused : env.fails (.insertAccount (.processing p.notes)) ≠ none) :
    Triple (At base) (insertAccount env session (.processing p.notes) row >>= fun accountId =>
      p.complete env session accountId type amount shares movement) (fun _ _ => False) (At base) :=
  .bind (fun _ _ => False) (triple_insertAccount (fun _ _ here => here)
    (fun allowed => (refused allowed).elim) fun _ _ never => never.elim) fun _ _ never => never.elim

theorem triple_subscriptionStopped (stopped : Stops env p.notes) :
    Triple (At base) (processSubscription env session p) (fun _ _ => False) (At base) := by
  refine .bind _ (triple_awaited fun _ _ here => here) fun _ => .assume fun listed => ?_
  refine .bind _ triple_get fun seen => ?_
  rintro db ⟨rfl, here⟩
  exact triple_unentered (stopped.resolve_left fun failing => failing listed) seen here

theorem triple_subscriptionReturned (stored : Stored base) (started : ¬ Stops env p.notes)
    (whole : Uninterrupted env p.notes .subscription) {a : CapitalAccountRecord}
    (entered : p.entry env .subscription base = some a) :
    Triple (At base) (processSubscription env session p)
      (fun _ => At (rewritten session p.businessDate (base ++ [a]))) (fun _ => False) := by
  refine .bind _ (triple_awaited fun failing _ _ => (started (.inl failing)).elim) fun _ =>
    .assume fun _ => ?_
  refine .bind _ triple_get fun seen => ?_
  rintro db ⟨rfl, here⟩
  have same : seen.accounts = base := here
  rw [← same] at stored entered ⊢
  cases entered
  exact triple_enteredWhole stored started whole rfl seen rfl

/-- A redemption that is stopped, or that the checks refuse, raises and leaves the accounts. -/
theorem triple_redemptionRefused (refused : Stops env p.notes ∨ p.entry env .redemption base = none) :
    Triple (At base) (processRedemption env session p) (fun _ _ => False) (At base) := by
  refine .bind _ (triple_awaited fun _ _ here => here) fun _ => .assume fun listed => ?_
  refine .bind _ triple_get fun seen => ?_
  refine .bind _ (triple_ofExcept.weaken (fun _ met => met) (fun _ _ met => met)
    fun _ met => met.2) fun existing => .assume fun checked => ?_
  rintro db ⟨rfl, here⟩
  have same : seen.accounts = base := here
  refine triple_unentered ?_ seen here
  rcases refused with (unlisted | uninserted) | none_entered
  · exact (unlisted listed).elim
  · exact uninserted
  · rw [← same] at none_entered
    unfold Processing.entry at none_entered
    dsimp only at none_entered
    rw [checked] at none_entered
    cases none_entered

theorem triple_redemptionReturned (stored : Stored base) (started : ¬ Stops env p.notes)
    (whole : Uninterrupted env p.notes .redemption) {a : CapitalAccountRecord}
    (entered : p.entry env .redemption base = some a) :
    Triple (At base) (processRedemption env session p)
      (fun _ => At (rewritten session p.businessDate (base ++ [a]))) (fun _ => False) := by
  obtain ⟨existing, passed, rfl⟩ := Option.map_eq_some_iff.mp entered
  refine .bind _ (triple_awaited fun failing _ _ => (started (.inl failing)).elim) fun _ =>
    .assume fun _ => ?_
  refine .bind _ triple_get fun seen => ?_
  rintro db ⟨rfl, here⟩
  have same : seen.accounts = base := here
  rw [← same] at stored entered passed ⊢
  cases checked : p.checkRedemption
      (latestForInvestor seen.accounts p.investorId p.shareClass (env.tie p.notes)) with
  | error e =>
    rw [checked] at passed
    cases passed
  | ok held =>
    rw [checked] at passed
    cases passed
    exact triple_enteredWhole stored started whole entered seen rfl

/-- Where nothing raises, all rows are written. -/
theorem triple_writesAll {accounts : List CapitalAccountRecord} (stored : Stored accounts)
    (snapshots : List Snapshot) (clear : ∀ s ∈ snapshots,
      env.fails (.insertAccount (.allocating s.id)) = none ∧ Clear env s.id) :
    Triple (At accounts) (snapshots.forM (d.write env session))
      (fun _ => At (accounts ++ d.rows snapshots)) (fun _ => False) := by
  induction snapshots generalizing accounts with
  | nil =>
    intro db here
    exact here.trans (List.append_nil accounts).symm
  | cons s rest ih =>
    have own := clear s List.mem_cons_self
    refine .bind (fun _ => At (accounts ++ d.rows [s])) ((triple_write stored s).weaken
      (fun _ here => here) (fun _ _ met => met.2) ?_) fun _ => ?_
    · rintro db (⟨refused, -⟩ | ⟨-, unclear, -⟩)
      · exact refused own.1
      · exact unclear own.2
    · have later := ih (List.forall_mem_append.mpr ⟨stored, stored_rows d [s]⟩)
        fun other inside => clear other (List.mem_cons_of_mem s inside)
      rw [List.append_assoc] at later
      exact later

theorem triple_allocationReturned (stored : Stored base) {snapshots : List Snapshot}
    (computed : d.snapshots session (latestByFund base) = .ok snapshots)
    (listed : env.fails (.latestByFund none) = none) (held : latestByFund base ≠ [])
    (finishes : Finishes env ((latestByFund base).map (·.2))) :
    Triple (At base) (allocateDaily env session d) (fun _ => At (base ++ d.rows snapshots))
      (fun _ => False) := by
  have clear : ∀ s ∈ snapshots, env.fails (.insertAccount (.allocating s.id)) = none ∧ Clear env s.id := by
    intro s inside
    refine finishes.1 s.id (List.mem_map.mpr ⟨(s.account, s.id), ?_, rfl⟩)
    rw [← snapshots_rows computed]
    exact List.mem_map_of_mem inside
  refine .bind _ (triple_awaited fun failing _ _ => (failing listed).elim) fun _ => .assume fun _ => ?_
  refine .bind _ triple_get fun seen => ?_
  rintro db ⟨rfl, here⟩
  have same : seen.accounts = base := here
  dsimp only
  rw [same, if_neg held, computed]
  have rest : Triple (At base) (snapshots.forM (d.write env session) >>= fun _ => do
      await env (.publishCapital none)
      return snapshots.length) (fun _ => At (base ++ d.rows snapshots)) (fun _ => False) := by
    refine .bind _ (triple_writesAll stored snapshots clear) fun _ => ?_
    refine .bind _ (triple_awaited fun failing _ _ => failing finishes.2) fun _ => ?_
    exact fun _ met => met.2
  exact rest seen here

end Returns

/-! ## What a call keeps -/

section Kept

variable {db : Database} {r : CapitalRun} {flows : Flows} {accounts base : List CapitalAccountRecord}

/-- The capital of the fund is what the history has put into it. -/
def Conserved (ledger : Database × Flows) : Prop := fundCapital ledger.1.accounts = ledger.2.net

instance (ledger : Database × Flows) : Decidable (Conserved ledger) :=
  inferInstanceAs (Decidable (_ = _))

structure Balanced (accounts : List CapitalAccountRecord) (flows : Flows) : Prop where
  stored : Stored accounts
  cents : ∀ a ∈ accounts, OnGrid 2 a.endingCapital
  conserved : fundCapital accounts = flows.net

theorem balanced_nil : Balanced [] {} where
  stored := List.forall_mem_nil _
  cents := List.forall_mem_nil _
  conserved := by decide +kernel

/-- Ownership that is written does not matter. -/
theorem Balanced.congr (balanced : Balanced base flows) (stored : Stored accounts)
    (same : accounts.map dated = base.map dated) : Balanced accounts flows where
  stored := stored
  cents := by
    intro a member
    have inside : dated a ∈ base.map dated := same ▸ List.mem_map_of_mem member
    obtain ⟨b, held, equal⟩ := List.mem_map.mp inside
    have endings : b.endingCapital = a.endingCapital := congrArg (·.2.2) equal
    exact endings ▸ balanced.cents b held
  conserved := (fundCapital_congr same).trans balanced.conserved

theorem released_writeOwnership (owner : Nat) (stored : Stored accounts) {changes : List (Nat × Decimal)}
    (distinct : (changes.map (·.1)).Nodup) :
    (writeOwnership owner changes accounts).map
      (fun a => a.withOwnership (a.ownershipPct.release owner)) = accounts := by
  apply List.ext_getElem?
  intro k
  rw [List.getElem?_map, getElem?_writeOwnership distinct]
  cases here : accounts[k]? with
  | none => rfl
  | some a =>
    obtain ⟨pct, same⟩ := stored a (List.mem_of_getElem? here)
    have kept : a.withOwnership ⟨some pct, none⟩ = a := by
      rw [← same]
      rfl
    cases changes.lookup k with
    | none => simp [same, Version.release, kept]
    | some changed =>
      simp only [Option.map_some, same, Version.hold, Version.seen]
      simpa [Version.release, CapitalAccountRecord.withOwnership] using kept

/-- Whatever becomes of the ownership that a call has rewritten. -/
theorem Balanced.settle (balanced : Balanced accounts flows) {date : Date}
    (here : At (rewritten r.owner date accounts) db) : Balanced (r.settle db).accounts flows := by
  have blind : ∀ (a : CapitalAccountRecord) pct, dated (a.withOwnership pct) = dated a := fun _ _ => rfl
  have rewrote : (rewritten r.owner date accounts).map dated = accounts.map dated := by
    unfold rewritten
    split
    · rfl
    · exact map_writeOwnership blind _ _ _
  rw [← show db.accounts = _ from here] at rewrote
  have stored := balanced.stored
  obtain ⟨call, env, session⟩ := r
  cases session with
  | none =>
    have same : db.accounts = accounts := here
    exact balanced.congr (same.symm ▸ stored) rewrote
  | some committed =>
    have distinct := ownershipChanges_distinct (some 0) date accounts
    cases committed with
    | false =>
      have released := released_writeOwnership 0 stored distinct
      refine balanced.congr ?_ ((map_close blind 0 db).trans rewrote)
      change Stored (db.accounts.map _)
      rw [show db.accounts = _ from here]
      exact released.symm ▸ stored
    | true =>
      refine balanced.congr ?_ ((map_close blind 0 _).trans ((map_commit blind (some 0) db).trans rewrote))
      rw [concluded_settle rfl, show db.accounts = _ from here]
      change Stored (concluded 0 (writeOwnership 0 (ownershipChanges (some 0) date accounts) accounts))
      rw [concluded_writeOwnership stored distinct]
      intro a member
      obtain ⟨k, place, rfl⟩ := List.mem_mapIdx.mp member
      exact ⟨_, rfl⟩

/-! ### Subscriptions and redemptions -/

variable {p : Processing} {type : TransactionType} {env : Env}

/-- What an operation adds to the capital of its investor. -/
def Processing.moves (p : Processing) : TransactionType → Decimal
  | .redemption => -p.amount
  | _ => p.amount

theorem mem_of_latestForInvestor {investorId : UUID} {shareClass : String} {tie : Nat}
    {a : CapitalAccountRecord} (found : latestForInvestor accounts investorId shareClass tie = some a) :
    a ∈ accounts :=
  List.mem_of_mem_filter (List.mem_of_mem_filter (List.mem_of_getElem? found))

theorem eq_of_checkRedemption {existing : Option CapitalAccountRecord} {a : CapitalAccountRecord}
    (passed : p.checkRedemption existing = .ok a) : existing = some a := by
  unfold Processing.checkRedemption at passed
  split at passed
  · cases passed
  · split_ifs at passed
    cases passed
    rfl

/-- The row closes with what it opens with and what the operation moves. -/
theorem entry_endingCapital {a : CapitalAccountRecord} (entered : p.entry env type base = some a)
    (cents : ∀ a ∈ base, OnGrid 2 a.endingCapital) (whole : OnGrid 2 p.amount) :
    a.endingCapital = p.opening env base + p.moves type := by
  unfold Processing.entry at entered
  dsimp only at entered
  unfold Processing.opening
  split at entered
  · obtain ⟨existing, passed, rfl⟩ := Option.map_eq_some_iff.mp entered
    cases checked : p.checkRedemption
        (latestForInvestor base p.investorId p.shareClass (env.tie p.notes)) with
    | error e =>
      rw [checked] at passed
      cases passed
    | ok held =>
      rw [checked] at passed
      cases passed
      have found := eq_of_checkRedemption checked
      rw [found]
      have opened := cents existing (mem_of_latestForInvestor found)
      change numeric 2 (existing.endingCapital - p.amount) = existing.endingCapital + -p.amount
      rw [(opened.sub whole).numeric_eq, sub_eq_add_neg]
  · rename_i subscribed
    cases entered
    have moved : p.moves type = p.amount := by cases type <;> first | rfl | exact absurd rfl subscribed
    rw [moved]
    cases found : latestForInvestor base p.investorId p.shareClass (env.tie p.notes) with
    | none =>
      change numeric 2 p.amount = 0 + p.amount
      rw [whole.numeric_eq, zero_add]
    | some existing =>
      have opened := cents existing (mem_of_latestForInvestor found)
      change numeric 2 (existing.endingCapital + p.amount) = existing.endingCapital + p.amount
      exact (opened.add whole).numeric_eq

theorem Balanced.entered {a : CapitalAccountRecord} (balanced : Balanced base flows)
    (entered : p.entry env type base = some a) (whole : OnGrid 2 p.amount)
    (lands : if ∃ b ∈ base, b.investorId = p.investorId ∧ p.businessDate < b.effectiveDate then p.amount = 0
      else superseded base p.investorId p.businessDate = p.opening env base) {put : Flows}
    (net : put.net = p.moves type) : Balanced (base ++ [a]) (flows + put) where
  stored := balanced.stored.entered entered
  cents := List.forall_mem_append.mpr
    ⟨balanced.cents, List.forall_mem_singleton.mpr (entry_columns entered).2.2.2⟩
  conserved := by
    obtain ⟨investor, date, -, -⟩ := entry_columns entered
    have closes := entry_endingCapital entered balanced.cents whole
    rw [Flows.net_add, net, ← balanced.conserved]
    split at lands
    · rename_i behind
      have nothing : p.moves type = 0 := by cases type <;> simp [Processing.moves, lands]
      rw [← investor, ← date] at behind
      rw [fundCapital_behind behind, nothing, add_zero]
    · rename_i reaches
      have reach : ∀ b ∈ base, b.investorId = a.investorId → b.effectiveDate ≤ a.effectiveDate := by
        intro b member own
        rw [investor] at own
        rw [date]
        exact not_lt.mp fun later => reaches ⟨b, member, own, later⟩
      rw [fundCapital_landed reach, investor, date, lands, closes]
      ring

/-- A call that leaves the accounts, and raises or puts in nothing. -/
theorem Balanced.unmoved (balanced : Balanced db.accounts flows) {after : Database}
    (here : At db.accounts after) : Balanced (r.settle after).accounts (flows + {}) := by
  have kept : At db.accounts (r.settle after) := balanced.stored.settle here
  rw [Flows.add_none, show (r.settle after).accounts = db.accounts from kept]
  exact balanced

/-- An operation that is refused moves nothing, and one that returns what it is for. -/
theorem Balanced.processed (balanced : Balanced db.accounts flows) {put : Flows}
    (net : put.net = p.moves type) (preserves : p.Preserves type r.env db.accounts)
    (puts : ∀ after, r.call.run r.env r.owner db = .ok () after → r.flows db = put)
    (refused : Stops r.env p.notes ∨ p.entry r.env type db.accounts = none →
      Triple (At db.accounts) (r.call.run r.env r.owner) (fun _ _ => False) (At db.accounts))
    (returned : ∀ a, ¬ Stops r.env p.notes → Uninterrupted r.env p.notes type →
      p.entry r.env type db.accounts = some a → Triple (At db.accounts) (r.call.run r.env r.owner)
        (fun _ => At (rewritten r.owner p.businessDate (db.accounts ++ [a]))) (fun _ => False)) :
    Balanced (r.result db).accounts (flows + r.flows db) := by
  by_cases blocked : Stops r.env p.notes ∨ p.entry r.env type db.accounts = none
  · have reached := refused blocked db rfl
    cases ran : r.call.run r.env r.owner db with
    | ok _ after =>
      rw [ran] at reached
      exact reached.elim
    | error e after =>
      rw [ran] at reached
      have none_put : r.flows db = {} := by rw [CapitalRun.flows, ran]
      rw [none_put, CapitalRun.result, ended, ran]
      exact balanced.unmoved reached
  · rw [not_or] at blocked
    obtain ⟨a, entered⟩ := Option.ne_none_iff_exists'.mp blocked.2
    obtain ⟨whole, cents, lands⟩ := preserves blocked.1 (Option.isSome_iff_exists.mpr ⟨a, entered⟩)
    have reached := returned a blocked.1 whole entered db rfl
    cases ran : r.call.run r.env r.owner db with
    | ok _ after =>
      rw [ran] at reached
      rw [puts after ran, CapitalRun.result, ended, ran]
      exact (balanced.entered entered cents lands net).settle reached
    | error e after =>
      rw [ran] at reached
      exact reached.elim

/-! ### Allocations -/

variable {d : DailyAllocation} {session : Option Nat} {snapshots : List Snapshot}

/-- The stored row of an account closes with what it had and what it was allocated. -/
theorem row_balances (cents : d.Cents) (held : ∀ a ∈ base, OnGrid 2 a.endingCapital)
    (computed : d.snapshots session (latestByFund base) = .ok snapshots) :
    ∀ s ∈ snapshots, (d.row s).columns.endingCapital = s.account.endingCapital +
      ((d.row s).columns.pnlAllocation - ((d.row s).columns.managementFeeAllocation +
        (d.row s).columns.performanceFeeAllocation)) := by
  have distinct := ids_distinct base
  obtain ⟨made, same, each⟩ := snapshots_ok d session distinct
  cases same.symm.trans computed
  have holdings_cents : ∀ a ∈ holdings session (latestByFund base), OnGrid 2 a.capital := by
    intro a member
    obtain ⟨entry, latest, rfl⟩ := List.mem_map.mp member
    exact held _ (mem_of_mem_latestByFund latest)
  have posts : ∀ post ∈ d.afterPnl session (latestByFund base), OnGrid 2 post.1.capital := by
    intro post member
    obtain ⟨entry, -, r, credit, -, -, rfl⟩ := forall₂_mem (afterPnl_each d session _).flip member
    exact onGrid_allocate add_zero (fun _ _ => OnGrid.add) holdings_cents cents.1 r credit
  intro s member
  obtain ⟨entry, latest, account, -, ⟨r, credit, -, amount⟩, charged, -⟩ := forall₂_mem each.flip member
  have pnl : OnGrid 2 s.pnl := amount ▸ onGrid_amounts _ _ cents.1 r credit
  have charge := cents_charges cents posts s.charge charged
  change numeric 2 s.charge.capital = s.account.endingCapital +
    (numeric 2 s.pnl - (numeric 2 s.charge.management + numeric 2 s.charge.performance))
  rw [charge.capital.numeric_eq, pnl.numeric_eq, charge.management.numeric_eq,
    charge.performance.numeric_eq, snapshots_balanced distinct computed s member]
  ring

theorem sum_rows (cents : d.Cents) (held : ∀ a ∈ base, OnGrid 2 a.endingCapital)
    (computed : d.snapshots session (latestByFund base) = .ok snapshots) :
    ((d.rows snapshots).map (·.endingCapital)).sum = fundCapital base + (allocated (d.rows snapshots)).net := by
  have balances := row_balances cents held computed
  have opened : fundCapital base = (snapshots.map (·.account.endingCapital)).sum := by
    rw [fundCapital, ← snapshots_rows computed, List.map_map]
    rfl
  rw [opened]
  clear opened computed
  induction snapshots with
  | nil => simp [DailyAllocation.rows, allocated, Flows.net]
  | cons s rest ih =>
    have first := balances s List.mem_cons_self
    have later := ih fun other inside => balances other (List.mem_cons_of_mem s inside)
    simp only [DailyAllocation.rows, allocated, Flows.net, List.map_cons, List.sum_cons, sub_zero,
      zero_add] at first later ⊢
    linarith

theorem Balanced.allocatedRows (balanced : Balanced base flows) (cents : d.Cents)
    (computed : d.snapshots session (latestByFund base) = .ok snapshots)
    (later : ∀ entry ∈ latestByFund base, entry.1.effectiveDate < d.businessDate) :
    Balanced (base ++ d.rows snapshots) (flows + allocated (d.rows snapshots)) where
  stored := List.forall_mem_append.mpr ⟨balanced.stored, stored_rows d snapshots⟩
  cents := List.forall_mem_append.mpr ⟨balanced.cents, cents_rows d snapshots⟩
  conserved := by
    rw [fundCapital, latestByFund_rows computed later, Flows.net_add, ← balanced.conserved,
      ← sum_rows cents balanced.cents computed]
    have rows : ((d.rows snapshots).zipIdx base.length).map (·.1.endingCapital) =
        (((d.rows snapshots).zipIdx base.length).map (·.1)).map (·.endingCapital) := by
      rw [List.map_map]
      rfl
    rw [rows, List.zipIdx_map_fst]

/-- An allocation that is stopped before its first row writes none. -/
theorem Allocated.unstarted (allocated : Allocated d env session base db)
    (unstarted : env.fails (.latestByFund none) ≠ none ∨ latestByFund base = [] ∨
      ∃ id ∈ ((latestByFund base).map (·.2)).head?, env.fails (.insertAccount (.allocating id)) ≠ none) :
    At base db := by
  rcases allocated with here | ⟨listed, snapshots, computed, wrote, later, split, here, -, stopped⟩
  · exact here
  · have rows := snapshots_rows computed
    have ids : snapshots.map (·.id) = (latestByFund base).map (·.2) := by
      rw [← rows, List.map_map]
      rfl
    have none_wrote : wrote = [] := by
      rcases unstarted with unlisted | empty | refused
      · exact (unlisted listed).elim
      · rw [empty, List.map_eq_nil_iff, split] at rows
        exact (List.append_eq_nil_iff.mp rows).1
      · exact stopped (ids ▸ refused)
    rw [none_wrote] at here
    exact here.trans (List.append_nil base)

theorem Balanced.allocation (balanced : Balanced db.accounts flows) (called : r.call = .allocation d)
    (preserves : d.Preserves r.env db.accounts) :
    Balanced (r.result db).accounts (flows + r.flows db) := by
  have stored := balanced.stored
  have calls : r.call.run r.env r.owner = allocateDaily r.env r.owner d >>= fun _ => pure () := by
    rw [called]
    rfl
  by_cases unstarted : r.env.fails (.latestByFund none) ≠ none ∨ latestByFund db.accounts = [] ∨
      ∃ id ∈ ((latestByFund db.accounts).map (·.2)).head?,
        r.env.fails (.insertAccount (.allocating id)) ≠ none
  · have left : Triple (At db.accounts) (r.call.run r.env r.owner) (fun _ => At db.accounts)
        (At db.accounts) := by
      rw [calls]
      exact .bind (fun _ => At db.accounts) ((triple_allocated stored).weaken (fun _ here => here)
        (fun _ _ allocated => allocated.unstarted unstarted) fun _ allocated =>
          allocated.unstarted unstarted) fun _ _ here => here
    have reached := left db rfl
    have none_put : r.flows db = {} := by
      rw [CapitalRun.flows, called]
      rw [called] at reached
      cases ran : CapitalCall.run r.env r.owner (.allocation d) db with
      | ok _ after =>
        rw [ran] at reached
        dsimp only
        rw [show after.accounts = db.accounts from reached, List.drop_length]
        rfl
      | error e after => rfl
    rw [none_put]
    exact balanced.unmoved (left.ended rfl)
  · rw [not_or, not_or, not_not] at unstarted
    obtain ⟨listed, held, first⟩ := unstarted
    obtain ⟨finishes, cents, later⟩ := (preserves listed held).resolve_left first
    obtain ⟨snapshots, computed, -⟩ := snapshots_ok d r.owner (ids_distinct db.accounts)
    have returned : Triple (At db.accounts) (r.call.run r.env r.owner)
        (fun _ => At (db.accounts ++ d.rows snapshots)) (fun _ => False) := by
      rw [calls]
      exact .bind _ (triple_allocationReturned stored computed listed held finishes) fun _ _ here => here
    have reached := returned db rfl
    cases ran : r.call.run r.env r.owner db with
    | ok _ after =>
      rw [ran] at reached
      have written : after.accounts = db.accounts ++ d.rows snapshots := reached
      have put : r.flows db = allocated (d.rows snapshots) := by
        rw [CapitalRun.flows, ran, called]
        dsimp only
        rw [written, List.drop_left]
      have whole := balanced.allocatedRows cents computed later
      have kept : At (db.accounts ++ d.rows snapshots) (r.settle after) := whole.stored.settle reached
      rw [put, CapitalRun.result, ended, ran]
      dsimp only
      rw [show (r.settle after).accounts = _ from kept]
      exact whole
    | error e after =>
      rw [ran] at reached
      exact reached.elim

theorem CapitalRun.Preserves.balanced (preserves : r.Preserves db) (balanced : Balanced db.accounts flows) :
    Balanced (r.result db).accounts (flows + r.flows db) := by
  have stored := balanced.stored
  obtain ⟨call, env, session⟩ := r
  cases call with
  | subscription p =>
    have net : ({ contributions := p.amount } : Flows).net = p.moves .subscription := by
      simp [Flows.net, Processing.moves]
    refine balanced.processed net preserves (fun after ran => ?_) (fun refused => ?_)
      fun a started whole entered => triple_subscriptionReturned stored started whole entered
    · rw [CapitalRun.flows, ran]
    · exact triple_subscriptionStopped (refused.resolve_right fun none_entered => nomatch none_entered)
  | redemption p =>
    have net : ({ redemptions := p.amount } : Flows).net = p.moves .redemption := by
      simp [Flows.net, Processing.moves]
    refine balanced.processed net preserves (fun after ran => ?_) triple_redemptionRefused
      fun a started whole entered => triple_redemptionReturned stored started whole entered
    rw [CapitalRun.flows, ran]
  | allocation d => exact balanced.allocation rfl preserves

end Kept

/-! ## Histories -/

/-- Along calls that preserve it, the capital of the fund is what they have put into it. -/
theorem capital_conserved {start final : Database} {flows : Flows} {runs : List CapitalRun}
    (empty : start.accounts = [])
    (preserves : fundLedger.Along (fun ledger r => r.Preserves ledger.1) (start, {}) runs)
    (ran : fundLedger.run (start, {}) runs = some (final, flows)) : Conserved (final, flows) := by
  have initial : Balanced start.accounts {} := empty ▸ balanced_nil
  have kept : ∀ (ledger : Database × Flows) (r : CapitalRun) next,
      Balanced ledger.1.accounts ledger.2 → r.Preserves ledger.1 →
        fundLedger.step ledger r = some next → Balanced next.1.accounts next.2 := by
    intro ledger r next balanced preserves stepped
    cases stepped
    exact preserves.balanced balanced
  exact (System.invariant_along kept preserves ran initial).conserved

/-- The days that two investors share, and a redemption after them. -/
def conservedDays : List CapitalRun :=
  sharedDays ++ [⟨.redemption { investorId := firstHolder, amount := 500, navPerShare := 103
                                businessDate := 3 }, {}, some false⟩]

theorem conservedDays_conserved : ∃ final flows,
    fundLedger.run ({}, {}) conservedDays = some (final, flows) ∧ flows = ⟨3000, 500, 100, 10⟩ ∧
      Conserved (final, flows) := by
  have calm : ∀ type, Uninterrupted {} none type :=
    fun _ => ⟨rfl, rfl, rfl, fun _ _ => rfl, rfl, rfl, rfl⟩
  have cents : OnGrid 2 100 ∧ OnGrid 2 10 ∧ OnGrid 2 0 :=
    ⟨⟨10000, by norm_num⟩, ⟨1000, by norm_num⟩, onGrid_zero⟩
  have finishes : ∀ ids, Finishes {} ids := fun _ => ⟨fun _ _ => ⟨rfl, rfl, fun _ => ⟨rfl, rfl⟩⟩, rfl⟩
  have preserves : fundLedger.Along (fun ledger r => r.Preserves ledger.1) ({}, {}) conservedDays := by
    refine ⟨fun _ _ => ⟨calm _, ⟨100000, ?_⟩, ?_⟩, fun _ _ => ⟨calm _, ⟨200000, ?_⟩, ?_⟩,
      fun _ _ => .inr ⟨finishes _, cents, ?_⟩, fun _ _ => ⟨calm _, ⟨50000, ?_⟩, ?_⟩, trivial⟩
    · norm_num [paidIn]
    · decide +kernel
    · norm_num [paidIn]
    · decide +kernel
    · decide +kernel
    · norm_num
    · decide +kernel
  exact ⟨_, _, rfl, by decide +kernel, capital_conserved rfl preserves rfl⟩

/-- An investor who subscribes twice on one day. -/
def sameDay : List CapitalRun := [paidIn firstHolder 1000 1, paidIn firstHolder 500 1]

/-- An investor who subscribes in another class the day after. -/
def otherClass : List CapitalRun :=
  [paidIn firstHolder 1000 1,
    ⟨.subscription { investorId := firstHolder, amount := 500, navPerShare := 100, businessDate := 2
                     shareClass := "B" }, {}, some true⟩]

/-- The first amount is counted twice, or not at all. -/
theorem sameDay_otherClass_miscounted :
    (∃ final flows, fundLedger.run ({}, {}) sameDay = some (final, flows) ∧ flows.net = 1500 ∧
      fundCapital final.accounts = 2500 ∧ ¬ Conserved (final, flows)) ∧
    ∃ final flows, fundLedger.run ({}, {}) otherClass = some (final, flows) ∧ flows.net = 1500 ∧
      fundCapital final.accounts = 500 ∧ ¬ Conserved (final, flows) := by
  refine ⟨⟨_, _, rfl, ?_⟩, _, _, rfl, ?_⟩ <;> decide +kernel

end MiniHedge.CapitalAccounts
