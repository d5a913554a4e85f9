import MiniHedge.CapitalAccounts.Rules
import MiniHedge.InvestorOperations.Approvals

/-! Runs of the dealing-date execution, and how often each request is executed.

A request and its row of capital are written through different sessions or in
different transactions. What a run does to both is said of their books: which
requests are queued, and how many rows are noted for each.
-/

set_option autoImplicit false

namespace MiniHedge.InvestorOperations

open MiniHedge.Python MiniHedge.Library MiniHedge.Shared
open MiniHedge.CashManagement (Date)
open MiniHedge.CapitalAccounts

/-! ## Runs -/

inductive RequestKind where
  | subscription
  | redemption
  deriving DecidableEq, Repr

def RequestKind.notes (id : Nat) : RequestKind → Notes
  | .subscription => .subscriptionRequest id
  | .redemption => .redemptionRequest id

theorem RequestKind.notes_injective {kind : RequestKind} {k id : Nat}
    (same : kind.notes k = kind.notes id) : k = id := by
  cases kind <;> exact by simpa [RequestKind.notes] using same

def RequestKind.transactionType : RequestKind → TransactionType
  | .subscription => .subscription
  | .redemption => .redemption

/-- The state that an executed request is left in. -/
def RequestKind.target : RequestKind → String
  | .subscription => SubscriptionState.executed.value
  | .redemption => RedemptionState.pendingPayment.value

structure Execution where
  kind : RequestKind
  dealingDate : Date
  navPerShare : Decimal
  portfolioId : UUID
  deriving DecidableEq, Repr

def Execution.run (e : Execution) (env : Env) (session : Option Nat) : Run Unit :=
  match e.kind with
  | .subscription => executeSubscriptions env session e.dealingDate e.navPerShare e.portfolioId
  | .redemption => executeRedemptions env session e.dealingDate e.navPerShare e.portfolioId

/-- The requests that a run would execute, as its session sees them. -/
def Execution.queue (e : Execution) (session : Option Nat) (db : Database) : List Nat :=
  match e.kind with
  | .subscription => (queuedSubscriptions session e.dealingDate db).map (·.1)
  | .redemption => (queuedRedemptions session e.dealingDate db).map (·.1)

/-- A run of the execution: whether it is given a session, and whether the owner of that session
commits it when the run has returned or raised. -/
structure ExecutionRun where
  call : Execution
  env : Env
  session : Option Bool

def ExecutionRun.result (db : Database) (r : ExecutionRun) : Database :=
  match r.session with
  | none => ended (r.call.run r.env none) db
  | some false => (ended (r.call.run r.env (some 0)) db).close 0
  | some true => ((ended (r.call.run r.env (some 0)) db).commit (some 0)).close 0

def execution : System Database ExecutionRun where
  step db r := some (r.result db)

/-! ## What is to hold -/

def SubscriptionState.Queued (s : SubscriptionState) : Prop := s = .queuedForNav

def RedemptionState.Queued (s : RedemptionState) : Prop := s = .queuedForNav ∨ s = .gateApplied

/-- The request of the notes is queued, as a session sees it. -/
def Queued (session : Option Nat) (db : Database) : Notes → Prop
  | .subscriptionRequest id => ∃ r, db.subscriptions.get session id = some r ∧ r.state.Queued
  | .redemptionRequest id => ∃ r, db.redemptions.get session id = some r ∧ r.state.Queued
  | .text _ => False

/-- How many rows of capital are noted for a request. -/
def capitalRows (db : Database) (notes : Notes) : Nat :=
  (db.accounts.map (·.notes)).count (some notes)

/-- How many transactions are. -/
def ledgerRows (db : Database) (notes : Notes) : Nat :=
  (db.transactions.map (·.notes)).count (some notes)

/-- Of the requests that were queued at the start, each has had its effect on the capital at most
once, and has left the queue in the database exactly if it has. -/
def ExecutedOnce (start db : Database) : Prop :=
  ∀ notes, Queued none start notes →
    capitalRows db notes ≤ 1 ∧ ledgerRows db notes = capitalRows db notes ∧
      (¬ Queued none db notes ↔ capitalRows db notes = 1)

/-- No session is open, and nothing is executed yet. -/
structure Awaiting (start : Database) : Prop where
  subscriptions : start.subscriptions.HeldBy none
  redemptions : start.redemptions.HeldBy none
  ownership : ∀ a ∈ start.accounts, a.ownershipPct.HeldBy none
  capital : ∀ notes, Queued none start notes → capitalRows start notes = 0
  ledger : ∀ notes, Queued none start notes → ledgerRows start notes = 0

/-! ## The condition -/

/-- The capital of the request is written to the end, and then the request is. -/
structure RequestKind.Written (kind : RequestKind) (env : Env) (id : Nat) : Prop where
  capital : Uninterrupted env (some (kind.notes id)) kind.transactionType
  request : env.fails (.updateState id kind.target) = none

/-- Of the requests of a queue, each that is come to is either stopped before its capital is
written or written with it. A request that is not published is the last. -/
def RequestKind.Covers (kind : RequestKind) (env : Env) : List Nat → Prop
  | [] => True
  | id :: rest => Stops env (some (kind.notes id)) ∨
      kind.Written env id ∧ (env.fails (.publish id) = none → kind.Covers env rest)

theorem covers_of_head {kind : RequestKind} {env : Env} {queue : List Nat}
    (first : ∀ id ∈ queue.head?, Stops env (some (kind.notes id))) : kind.Covers env queue := by
  cases queue with
  | nil => exact trivial
  | cons id rest => exact .inl (first id rfl)

theorem covers_of_calm {kind : RequestKind} {env : Env} {queue : List Nat}
    (calm : ∀ op, env.fails op = none) : kind.Covers env queue := by
  induction queue with
  | nil => exact trivial
  | cons id rest ih =>
    refine .inr ⟨⟨?_, calm _⟩, fun _ => ih⟩
    exact ⟨calm _, calm _, calm _, fun _ _ => calm _, calm _, calm _, calm _⟩

/-- The run comes to the first request of its queue. -/
structure Execution.Starts (e : Execution) (env : Env) (session : Option Nat) (db : Database) :
    Prop where
  priced : 0 < e.navPerShare
  listed : env.fails .listByDealingDate = none
  requeued : e.kind = .redemption → ∀ entry ∈ queuedRedemptions session e.dealingDate db,
    entry.2.state = .gateApplied →
      env.fails (.updateState entry.1 RedemptionState.queuedForNav.value) = none
  terms : e.kind = .redemption → env.fails (.readTerms defaultShareClass) = none

/-- A run that comes to its queue is stopped at the first request of it, or has a session that its
owner commits and covers the requests. -/
def ExecutionRun.Covered (db : Database) (r : ExecutionRun) : Prop :=
  let session := r.session.map fun _ => 0
  r.call.Starts r.env session db →
    (∀ id ∈ (r.call.queue session db).head?, Stops r.env (some (r.call.kind.notes id))) ∨
      r.session = some true ∧ r.call.kind.Covers r.env (r.call.queue session db)

/-! ## Books -/

section Books

variable (session : Option Nat) (start db : Database)

/-- The rows that are noted for a request. -/
def Recorded (notes : Notes) (capital ledger : Nat) : Prop :=
  capitalRows db notes = capital ∧ ledgerRows db notes = ledger

def Once (notes : Notes) : Prop :=
  Queued session db notes ∧ Recorded db notes 0 0 ∨ ¬ Queued session db notes ∧ Recorded db notes 1 1

/-- No other session holds a row, and no request has come into the queue. -/
structure Own : Prop where
  subscriptions : db.subscriptions.HeldBy session
  redemptions : db.redemptions.HeldBy session
  ownership : ∀ a ∈ db.accounts, a.ownershipPct.HeldBy session
  back : ∀ notes, Queued session db notes → Queued none start notes

structure Books : Prop extends Own session start db where
  once : ∀ notes, Queued none start notes → Once session db notes

/-- A request is being executed, with these rows so far. -/
structure Between (notes : Notes) (capital ledger : Nat) : Prop extends Own session start db where
  others : ∀ other, other ≠ notes → Queued none start other → Once session db other
  queued : Queued session db notes
  rows : Recorded db notes capital ledger

end Books

section Steps

variable {session : Option Nat} {start db : Database} {notes : Notes} {capital ledger : Nat}

theorem Books.between (books : Books session start db) (queued : Queued session db notes) :
    Between session start db notes 0 0 where
  toOwn := books.toOwn
  others other _ was := books.once other was
  queued := queued
  rows := by
    rcases books.once notes (books.back notes queued) with ⟨-, rows⟩ | ⟨left, -⟩
    · exact rows
    · exact absurd queued left

/-! ### Rows of capital -/

theorem queued_of_get {session' : Option Nat} {db' : Database}
    (subscriptions : ∀ id, db'.subscriptions.get session' id = db.subscriptions.get session id)
    (redemptions : ∀ id, db'.redemptions.get session' id = db.redemptions.get session id) :
    Queued session' db' notes ↔ Queued session db notes := by
  cases notes with
  | subscriptionRequest id => rw [Queued, Queued, subscriptions]
  | redemptionRequest id => rw [Queued, Queued, redemptions]
  | text => exact Iff.rfl

theorem queued_commit : Queued session (db.commit session) notes ↔ Queued session db notes :=
  queued_of_get (fun _ => Versioned.get_commit_own) fun _ => Versioned.get_commit_own

theorem recorded_commit (owner : Option Nat) :
    Recorded (db.commit owner) notes capital ledger ↔ Recorded db notes capital ledger := by
  have same : (db.commit owner).accounts.map (·.notes) = db.accounts.map (·.notes) :=
    map_commit (fun _ _ => rfl) owner db
  have ledger : (db.commit owner).transactions = db.transactions := rfl
  rw [Recorded, Recorded, capitalRows, capitalRows, ledgerRows, ledgerRows, same, ledger]

theorem once_commit : Once session (db.commit session) notes ↔ Once session db notes := by
  rw [Once, Once, queued_commit, recorded_commit, recorded_commit]

theorem Own.commit (own : Own session start db) : Own session start (db.commit session) where
  subscriptions := own.subscriptions.commit
  redemptions := own.redemptions.commit
  ownership := by
    intro a member
    obtain ⟨old, inside, rfl⟩ := List.mem_map.mp member
    cases session with
    | none => exact own.ownership old inside
    | some owner => exact (own.ownership old inside).commit
  back notes queued := own.back notes (queued_commit.mp queued)

theorem Between.commit (between : Between session start db notes capital ledger) :
    Between session start (db.commit session) notes capital ledger where
  toOwn := between.toOwn.commit
  others other apart was := once_commit.mpr (between.others other apart was)
  queued := queued_commit.mpr between.queued
  rows := (recorded_commit session).mpr between.rows

theorem capitalRows_insert (a : CapitalAccountRecord) (db : Database) (other : Notes) :
    capitalRows { db with accounts := db.accounts ++ [a] } other =
      capitalRows db other + if a.notes = some other then 1 else 0 := by
  rw [capitalRows, capitalRows, List.map_append, List.count_append, List.map_singleton,
    List.count_singleton]
  simp only [beq_iff_eq]

theorem ledgerRows_insert (t : CapitalTransactionRecord) (db : Database) (other : Notes) :
    ledgerRows { db with transactions := db.transactions ++ [t] } other =
      ledgerRows db other + if t.notes = some other then 1 else 0 := by
  rw [ledgerRows, ledgerRows, List.map_append, List.count_append, List.map_singleton,
    List.count_singleton]
  simp only [beq_iff_eq]

/-- A row of capital for the request that is being executed. -/
theorem Between.insertAccount (between : Between session start db notes capital ledger)
    {a : CapitalAccountRecord} (noted : a.notes = some notes)
    (free : a.ownershipPct.HeldBy none) :
    Between session start { db with accounts := db.accounts ++ [a] } notes (capital + 1) ledger where
  subscriptions := between.subscriptions
  redemptions := between.redemptions
  ownership := by
    intro b member
    rcases List.mem_append.mp member with old | new
    · exact between.ownership b old
    · rw [List.mem_singleton.mp new]
      exact free.any
  back := between.back
  others := by
    intro other apart was
    have same : ∀ c l, Recorded { db with accounts := db.accounts ++ [a] } other c l ↔
        Recorded db other c l := by
      intro c l
      have skipped : ¬ a.notes = some other := fun own =>
        apart (Option.some.inj (own.symm.trans noted))
      rw [Recorded, capitalRows_insert, if_neg skipped]
      exact Iff.rfl
    unfold Once
    rw [same, same]
    exact between.others other apart was
  queued := between.queued
  rows := by
    refine ⟨?_, between.rows.2⟩
    rw [capitalRows_insert, if_pos noted, between.rows.1]

theorem Between.insertTransaction (between : Between session start db notes capital ledger)
    {t : CapitalTransactionRecord} (noted : t.notes = some notes) :
    Between session start { db with transactions := db.transactions ++ [t] } notes capital
      (ledger + 1) where
  subscriptions := between.subscriptions
  redemptions := between.redemptions
  ownership := between.ownership
  back := between.back
  others := by
    intro other apart was
    have same : ∀ c l, Recorded { db with transactions := db.transactions ++ [t] } other c l ↔
        Recorded db other c l := by
      intro c l
      have skipped : ¬ t.notes = some other := fun own =>
        apart (Option.some.inj (own.symm.trans noted))
      rw [Recorded, ledgerRows_insert, if_neg skipped]
      exact Iff.rfl
    unfold Once
    rw [same, same]
    exact between.others other apart was
  queued := between.queued
  rows := by
    refine ⟨between.rows.1, ?_⟩
    rw [ledgerRows_insert, if_pos noted, between.rows.2]

theorem ownership_writeOwnership {owner : Nat} (changes : List (Nat × Decimal))
    {accounts : List CapitalAccountRecord}
    (held : ∀ a ∈ accounts, a.ownershipPct.HeldBy (some owner)) :
    ∀ a ∈ writeOwnership owner changes accounts, a.ownershipPct.HeldBy (some owner) := by
  unfold writeOwnership
  induction changes generalizing accounts with
  | nil => exact held
  | cons change rest ih =>
    apply ih
    intro a member
    obtain ⟨i, place⟩ := List.mem_iff_getElem?.mp member
    rw [List.getElem?_modify] at place
    obtain ⟨old, here, rfl⟩ := Option.map_eq_some_iff.mp place
    have kept := held old (List.mem_of_getElem? here)
    split
    · exact kept.hold
    · exact kept

theorem Between.calm : Calm session (Between session start · notes capital ledger) where
  commit _ between := between.commit
  cash _ _ between := { between with }
  ownership := by
    rintro db owner changes rfl between
    have same : (writeOwnership owner changes db.accounts).map (·.notes) =
        db.accounts.map (·.notes) := map_writeOwnership (fun _ _ => rfl) owner changes db.accounts
    have recorded : ∀ other c l,
        Recorded { db with accounts := writeOwnership owner changes db.accounts } other c l ↔
          Recorded db other c l := by
      intro other c l
      rw [Recorded, capitalRows, same]
      exact Iff.rfl
    exact {
      subscriptions := between.subscriptions
      redemptions := between.redemptions
      ownership := ownership_writeOwnership changes between.ownership
      back := between.back
      others := fun other apart was => by
        unfold Once
        rw [recorded, recorded]
        exact between.others other apart was
      queued := between.queued
      rows := (recorded _ _ _).mpr between.rows }

/-! ### Requests -/

theorem Between.books (between : Between session start db notes 0 0) : Books session start db where
  toOwn := between.toOwn
  once other was := by
    by_cases own : other = notes
    · exact .inl (own ▸ ⟨between.queued, between.rows⟩)
    · exact between.others other own was

variable {db' : Database}

/-- The request leaves the queue with its rows of capital. -/
theorem Between.finish (between : Between session start db notes 1 1)
    (subscriptions : db'.subscriptions.HeldBy session)
    (redemptions : db'.redemptions.HeldBy session) (accounts : db'.accounts = db.accounts)
    (transactions : db'.transactions = db.transactions)
    (left : ∀ other, Queued session db' other ↔ other ≠ notes ∧ Queued session db other) :
    Books session start db' where
  subscriptions := subscriptions
  redemptions := redemptions
  ownership := accounts ▸ between.ownership
  back other queued := between.back other ((left other).mp queued).2
  once other was := by
    have recorded : ∀ c l, Recorded db' other c l ↔ Recorded db other c l := by
      intro c l
      rw [Recorded, Recorded, capitalRows, capitalRows, ledgerRows, ledgerRows, accounts,
        transactions]
    unfold Once
    rw [recorded, recorded, left]
    by_cases own : other = notes
    · exact .inr ⟨fun queued => queued.1 own, own ▸ between.rows⟩
    · rcases between.others other own was with ⟨queued, rows⟩ | ⟨gone, rows⟩
      · exact .inl ⟨⟨own, queued⟩, rows⟩
      · exact .inr ⟨fun queued => gone queued.2, rows⟩

/-- A write that leaves every request in the queue or out of it, or the end of a session. -/
theorem Books.rewrite {session' : Option Nat} (books : Books session start db)
    (subscriptions : db'.subscriptions.HeldBy session')
    (redemptions : db'.redemptions.HeldBy session')
    (ownership : ∀ a ∈ db'.accounts, a.ownershipPct.HeldBy session')
    (accounts : db'.accounts.map (·.notes) = db.accounts.map (·.notes))
    (transactions : db'.transactions = db.transactions)
    (same : ∀ other, Queued session' db' other ↔ Queued session db other) :
    Books session' start db' where
  subscriptions := subscriptions
  redemptions := redemptions
  ownership := ownership
  back other queued := books.back other ((same other).mp queued)
  once other was := by
    have recorded : ∀ c l, Recorded db' other c l ↔ Recorded db other c l := by
      intro c l
      rw [Recorded, Recorded, capitalRows, capitalRows, ledgerRows, ledgerRows, accounts,
        transactions]
    unfold Once
    rw [recorded, recorded, same]
    exact books.once other was

/-- What the session has left is stored when its owner commits it. -/
theorem Books.committed {owner : Nat} (books : Books (some owner) start db) :
    Books none start ((db.commit (some owner)).close owner) := by
  have own := books.toOwn.commit
  refine books.rewrite own.subscriptions.close own.redemptions.close ?_ ?_ rfl ?_
  · intro a member
    obtain ⟨old, inside, rfl⟩ := List.mem_map.mp member
    exact (own.ownership old inside).release
  · rw [map_close fun _ _ => rfl, map_commit fun _ _ => rfl]
  · intro other
    exact queued_of_get (fun _ => books.subscriptions.get_committed)
      (fun _ => books.redemptions.get_committed)

end Steps

section Updates

variable {owner id : Nat} {db : Database}

theorem queued_updateSubscription {change : SubscriptionRequestRecord → SubscriptionRequestRecord}
    {old : SubscriptionRequestRecord} (held : db.subscriptions.HeldBy (some owner))
    (visible : db.subscriptions.get (some owner) id = some old) (other : Notes) :
    Queued (some owner)
        { db with subscriptions := db.subscriptions.update (some owner) id change } other ↔
      if other = .subscriptionRequest id then (change old).state.Queued
      else Queued (some owner) db other := by
  cases other with
  | subscriptionRequest k =>
    by_cases own : k = id
    · subst own
      have written : (db.subscriptions.update (some owner) k change).get (some owner) k =
          some (change old) := by
        rw [Versioned.get_update (held.unlocked k) visible, if_pos ⟨nofun, rfl⟩]
      simp [Queued, written]
    · have same : (db.subscriptions.update (some owner) id change).get (some owner) k =
          db.subscriptions.get (some owner) k := Versioned.get_update_other (Ne.symm own)
      simp [Queued, same, own]
  | redemptionRequest k => simp [Queued]
  | text => simp [Queued]

theorem queued_updateRedemption {change : RedemptionRequestRecord → RedemptionRequestRecord}
    {old : RedemptionRequestRecord} (held : db.redemptions.HeldBy (some owner))
    (visible : db.redemptions.get (some owner) id = some old) (other : Notes) :
    Queued (some owner)
        { db with redemptions := db.redemptions.update (some owner) id change } other ↔
      if other = .redemptionRequest id then (change old).state.Queued
      else Queued (some owner) db other := by
  cases other with
  | redemptionRequest k =>
    by_cases own : k = id
    · subst own
      have written : (db.redemptions.update (some owner) k change).get (some owner) k =
          some (change old) := by
        rw [Versioned.get_update (held.unlocked k) visible, if_pos ⟨nofun, rfl⟩]
      simp [Queued, written]
    · have same : (db.redemptions.update (some owner) id change).get (some owner) k =
          db.redemptions.get (some owner) k := Versioned.get_update_other (Ne.symm own)
      simp [Queued, same, own]
  | subscriptionRequest k => simp [Queued]
  | text => simp [Queued]

end Updates

/-! ## How a run comes to its queue -/

section Starts

variable {env : Env} {session : Option Nat} {db : Database} {inv last : Database → Prop}

theorem triple_termsRead {shareClass : String} (idle : ∀ s, inv s → last s) :
    Triple inv (termsByShareClass env shareClass)
      (fun _ s => env.fails (.readTerms shareClass) = none ∧ inv s) last := by
  refine .bind _ (triple_awaited fun _ => idle) fun _ => .bind _ triple_get fun seen => ?_
  exact fun s held => held.2

theorem triple_requeue {id : Nat} {r : RedemptionRequestRecord}
    (kept : r.state = .gateApplied → ∀ s, inv s → s.redemptions.locked session id = false →
      inv { s with redemptions := s.redemptions.update session id fun r =>
        { r with state := .queuedForNav } }) :
    Triple inv (requeue env session id r)
      (fun _ s => (r.state = .gateApplied →
        env.fails (.updateState id RedemptionState.queuedForNav.value) = none) ∧ inv s) inv := by
  unfold requeue
  split
  · rename_i applied
    refine .bind _ triple_ofExcept fun target => .assume fun decided => ?_
    obtain ⟨-, rfl⟩ := applyTransition_eq_ok.mp decided
    refine .bind _ (triple_awaited fun _ _ held => held) fun _ => .assume fun allowed => ?_
    refine .bind _ triple_get fun seen => ?_
    split
    · rintro s ⟨-, held⟩
      exact held
    · rename_i free
      rintro s ⟨rfl, held⟩
      exact ⟨fun _ => allowed, kept applied seen held (Bool.eq_false_of_not_eq_true free)⟩
  · rename_i apart
    exact fun s held => ⟨fun applied => absurd applied apart, held⟩

/-- What the loop before the execution has requeued it did not fail to. -/
theorem triple_requeued {entries : List (Nat × RedemptionRequestRecord)}
    (kept : ∀ entry ∈ entries, ∀ s, inv s → s.redemptions.locked session entry.1 = false →
      inv { s with redemptions := s.redemptions.update session entry.1 fun r =>
        { r with state := .queuedForNav } }) :
    Triple inv (entries.forM fun (id, r) => requeue env session id r)
      (fun _ s => (∀ entry ∈ entries, entry.2.state = .gateApplied →
        env.fails (.updateState entry.1 RedemptionState.queuedForNav.value) = none) ∧ inv s) inv := by
  induction entries with
  | nil => exact fun s held => ⟨List.forall_mem_nil _, held⟩
  | cons entry rest ih =>
    refine .bind _ (triple_requeue fun _ => kept entry List.mem_cons_self) fun _ =>
      .assume fun first => ?_
    refine (ih fun other member => kept other (List.mem_cons_of_mem _ member)).weaken
      (fun _ held => held) ?_ fun _ held => held
    rintro - s ⟨later, held⟩
    exact ⟨List.forall_mem_cons.mpr ⟨first, later⟩, held⟩

theorem triple_subscriptionRun {dealingDate : Date} {navPerShare : Decimal} {portfolioId : UUID}
    (idle : ∀ s, inv s → last s)
    (executed : Execution.Starts ⟨.subscription, dealingDate, navPerShare, portfolioId⟩ env session db →
      Triple inv ((queuedSubscriptions session dealingDate db).forM fun (id, r) =>
        executeSubscription env session dealingDate navPerShare portfolioId id r)
        (fun _ => last) last) :
    Triple (fun s => s = db ∧ inv s)
      (executeSubscriptions env session dealingDate navPerShare portfolioId) (fun _ => last) last := by
  unfold executeSubscriptions
  split
  · exact fun s held => idle s held.2
  · rename_i priced
    refine .bind _ (triple_awaited fun _ s held => idle s held.2) fun _ =>
      .assume fun listed => .bind _ triple_get fun seen => ?_
    rintro _ ⟨rfl, rfl, held⟩
    exact executed ⟨lt_of_not_ge priced, listed, nofun, nofun⟩ _ held

theorem triple_redemptionRun {dealingDate : Date} {navPerShare : Decimal} {portfolioId : UUID}
    (kept : ∀ entry ∈ queuedRedemptions session dealingDate db, ∀ s, inv s →
      s.redemptions.locked session entry.1 = false →
        inv { s with redemptions := s.redemptions.update session entry.1 fun r =>
          { r with state := .queuedForNav } })
    (idle : ∀ s, inv s → last s)
    (executed : Execution.Starts ⟨.redemption, dealingDate, navPerShare, portfolioId⟩ env session db →
      ∀ paymentDays, Triple inv ((queuedRedemptions session dealingDate db).forM fun (id, r) =>
        executeRedemption env session dealingDate navPerShare portfolioId paymentDays id r)
        (fun _ => last) last) :
    Triple (fun s => s = db ∧ inv s)
      (executeRedemptions env session dealingDate navPerShare portfolioId) (fun _ => last) last := by
  unfold executeRedemptions
  split
  · exact fun s held => idle s held.2
  · rename_i priced
    refine .bind _ (triple_awaited fun _ s held => idle s held.2) fun _ =>
      .assume fun listed => .bind _ triple_get fun seen => ?_
    rintro _ ⟨rfl, rfl, held⟩
    have rest : Triple inv _ (fun _ => last) last :=
      .bind _ ((triple_requeued kept).weaken (fun _ held => held) (fun _ _ held => held) idle)
        fun _ => .assume fun requeued => .bind _ (triple_termsRead idle) fun terms =>
          .assume fun read => executed ⟨lt_of_not_ge priced, listed, fun _ => requeued,
            fun _ => read⟩ ((terms.map (·.paymentDays)).getD 30)
    exact rest _ held

end Starts

section Queue

variable {session : Option Nat} {db : Database}

theorem mem_queuedRedemptions {dealingDate : Date} {id : Nat} {r : RedemptionRequestRecord} :
    (id, r) ∈ queuedRedemptions session dealingDate db ↔
      db.redemptions.get session id = some r ∧ r.dealingDate = some dealingDate ∧
        r.state.Queued := by
  simp [queuedRedemptions, redemptionsDealingOn, Versioned.mem_rows, and_assoc,
    RedemptionState.Queued]

theorem queuedRedemptions_distinct (dealingDate : Date) :
    ((queuedRedemptions session dealingDate db).map (·.1)).Nodup := by
  refine (List.Sublist.map _ List.filter_sublist).nodup ?_
  refine ((sortOn_perm _ _).map _).nodup_iff.mpr ?_
  exact (List.Sublist.map _ List.filter_sublist).nodup Versioned.rows_distinct

end Queue

end MiniHedge.InvestorOperations
