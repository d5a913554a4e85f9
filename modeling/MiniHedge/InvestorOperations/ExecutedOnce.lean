import MiniHedge.InvestorOperations.Execution

/-! Runs of the execution that cover their requests execute each of them once. -/

set_option autoImplicit false

namespace MiniHedge.InvestorOperations

open MiniHedge.Python MiniHedge.Library MiniHedge.Shared
open MiniHedge.CashManagement (Date)
open MiniHedge.CapitalAccounts

/-! ## Runs that are stopped at their first request -/

/-- Nothing is executed, and what the session has written is not stored. -/
structure Untouched (session : Option Nat) (start db : Database) : Prop where
  accounts : db.accounts = start.accounts
  transactions : db.transactions = start.transactions
  subscriptions : db.subscriptions = start.subscriptions
  redemptions : db.redemptions.HeldBy session
  stored : ∀ id, db.redemptions.get none id = start.redemptions.get none id

section Untouched

variable {env : Env} {session : Option Nat} {start db : Database}

theorem Untouched.refl (free : start.redemptions.HeldBy none) : Untouched session start start where
  accounts := rfl
  transactions := rfl
  subscriptions := rfl
  redemptions := free.any
  stored _ := rfl

theorem Untouched.update (untouched : Untouched session start db) (id : Nat)
    (change : RedemptionRequestRecord → RedemptionRequestRecord) :
    Untouched session start { db with redemptions := db.redemptions.update session id change } where
  accounts := untouched.accounts
  transactions := untouched.transactions
  subscriptions := untouched.subscriptions
  redemptions := untouched.redemptions.update
  stored k := by
    rw [← untouched.stored k]
    exact Versioned.get_update_stored

/-- The row of a request that is stopped is never inserted. -/
theorem completes_never {notes : Option Notes} {type : TransactionType}
    {raised : Database → Prop} :
    Completes env session notes type (fun _ => False) (fun _ => False) raised where
  recorded _ _ _ impossible := impossible.elim
  calm := ⟨fun _ impossible => impossible, fun _ _ impossible => impossible,
    fun _ _ _ _ impossible => impossible⟩
  unrecorded _ _ impossible := impossible.elim
  failed _ _ impossible := impossible.elim

theorem stopped_executeSubscription {dealingDate : Date} {navPerShare : Decimal}
    {portfolioId : UUID} {id : Nat} {r : SubscriptionRequestRecord} {inv : Database → Prop}
    (stops : Stops env (some (.subscriptionRequest id))) :
    Triple inv (executeSubscription env session dealingDate navPerShare portfolioId id r)
      (fun _ _ => False) inv := by
  refine .bind _ triple_ofExcept fun target => .assume fun _ => ?_
  refine .bind (fun _ _ => False) (triple_processSubscription (fun _ held => held) ?_
    completes_never) fun _ => fun _ impossible => impossible.elim
  exact fun unstopped => absurd stops unstopped

theorem stopped_executeRedemption {dealingDate : Date} {navPerShare : Decimal}
    {portfolioId : UUID} {paymentDays : Int} {id : Nat} {r : RedemptionRequestRecord}
    {inv : Database → Prop} (stops : Stops env (some (.redemptionRequest id))) :
    Triple inv (executeRedemption env session dealingDate navPerShare portfolioId paymentDays id r)
      (fun _ _ => False) inv := by
  refine .bind _ triple_ofExcept fun current => .assume fun _ => ?_
  refine .bind _ triple_ofExcept fun target => .assume fun _ => ?_
  refine .bind (fun _ _ => False) (triple_processRedemption (fun _ held _ => held) ?_
    completes_never) fun _ => fun _ impossible => impossible.elim
  exact fun unstopped => absurd stops unstopped

end Untouched

/-! ## Runs that cover their requests -/

/-- The rest of a queue, while the first of its requests have been executed. -/
structure Remaining (kind : RequestKind) (session : Option Nat) (start : Database)
    (queue : List Nat) (db : Database) : Prop extends Books session start db where
  distinct : queue.Nodup
  waiting : ∀ id ∈ queue, Queued session db (kind.notes id)

section Covered

variable {env : Env} {session : Option Nat} {owner id : Nat} {start db db' : Database}
  {kind : RequestKind} {rest : List Nat}

theorem waiting_calm :
    Undisturbed session fun db => ∀ k ∈ rest, Queued session db (kind.notes k) where
  commit _ waiting k member := queued_commit.mpr (waiting k member)
  accounts _ _ waiting k member := (queued_of_get (fun _ => rfl) fun _ => rfl).mpr (waiting k member)
  transactions _ _ waiting k member := (queued_of_get (fun _ => rfl) fun _ => rfl).mpr (waiting k member)
  cash _ _ waiting k member := (queued_of_get (fun _ => rfl) fun _ => rfl).mpr (waiting k member)

theorem completes_written {notes : Notes} {type : TransactionType}
    (whole : Uninterrupted env (some notes) type) :
    Completes env session (some notes) type (Between session start · notes 1 0)
      (Between session start · notes 1 1) (Books session start) where
  recorded _ _ noted row := (row.insertTransaction noted).commit
  calm := Between.calm
  unrecorded broken := absurd whole broken
  failed db waits between := by
    obtain ⟨a, inside, locked⟩ := waits whole
    rw [(between.ownership a inside).unlocked] at locked
    cases locked

/-- The request is no longer queued, and the rest of the queue is as it was. -/
theorem Between.leave (between : Between session start db (kind.notes id) 1 1)
    (waiting : ∀ k ∈ rest, Queued session db (kind.notes k)) (distinct : (id :: rest).Nodup)
    (subscriptions : db'.subscriptions.HeldBy session)
    (redemptions : db'.redemptions.HeldBy session) (accounts : db'.accounts = db.accounts)
    (transactions : db'.transactions = db.transactions)
    (left : ∀ other, Queued session db' other ↔ other ≠ kind.notes id ∧ Queued session db other) :
    Remaining kind session start rest db' where
  toBooks := between.finish subscriptions redemptions accounts transactions left
  distinct := (List.nodup_cons.mp distinct).2
  waiting k member := by
    refine (left _).mpr ⟨fun same => ?_, waiting k member⟩
    rw [kind.notes_injective same] at member
    exact (List.nodup_cons.mp distinct).1 member

/-- The capital of a request, with its transaction. -/
theorem triple_subscribed {p : Processing} {notes : Notes} (noted : p.notes = some notes)
    (whole : Uninterrupted env (some notes) .subscription) :
    Triple (Between session start · notes 0 0) (processSubscription env session p)
      (fun _ db => Between session start db notes 1 1) (Books session start) := by
  refine triple_processSubscription (fun _ between => between.books) ?_
    (noted ▸ completes_written whole)
  intro _ db between
  refine (between.insertAccount ?_ ?_).commit
  · unfold Processing.subscribed
    split <;> exact noted
  · unfold Processing.subscribed
    split <;> exact Version.heldBy_stored

theorem triple_redeemed {p : Processing} {notes : Notes} (noted : p.notes = some notes)
    (whole : Uninterrupted env (some notes) .redemption) :
    Triple (Between session start · notes 0 0) (processRedemption env session p)
      (fun _ db => Between session start db notes 1 1) (Books session start) := by
  refine triple_processRedemption (fun _ between _ => between.books) ?_
    (noted ▸ completes_written whole)
  intro _ db a between _
  exact (between.insertAccount noted Version.heldBy_stored).commit

theorem Remaining.first {id : Nat} (remaining : Remaining kind session start (id :: rest) db) :
    Between session start db (kind.notes id) 0 0 ∧
      ∀ k ∈ id :: rest, Queued session db (kind.notes k) :=
  ⟨remaining.toBooks.between (remaining.waiting id List.mem_cons_self), remaining.waiting⟩

theorem triple_subscriptionExecuted {dealingDate : Date} {navPerShare : Decimal}
    {portfolioId : UUID} {r : SubscriptionRequestRecord}
    (covers : RequestKind.subscription.Covers env (id :: rest)) :
    Triple (Remaining .subscription (some owner) start (id :: rest))
      (executeSubscription env (some owner) dealingDate navPerShare portfolioId id r)
      (fun _ db => RequestKind.subscription.Covers env rest ∧
        Remaining .subscription (some owner) start rest db) (Books (some owner) start) := by
  rcases covers with stops | ⟨written, onward⟩
  · exact (stopped_executeSubscription stops).weaken (fun _ remaining => remaining)
      (fun _ _ impossible => impossible.elim) fun _ remaining => remaining.toBooks
  · refine .bind _ (triple_ofExcept.weaken (fun _ remaining => remaining)
      (fun _ _ remaining => remaining) fun _ remaining => remaining.toBooks) fun target =>
        .assume fun decided => ?_
    obtain ⟨-, rfl⟩ := applyTransition_eq_ok.mp decided
    intro db remaining
    have distinct := remaining.distinct
    refine Triple.bind _ (((triple_subscribed rfl written.capital).keeping
      (keeps_processSubscription waiting_calm _)).weaken (fun _ met => met) (fun _ _ met => met)
        fun _ met => met.1) (fun _ => ?_) db remaining.first
    refine .bind (fun _ => Remaining .subscription (some owner) start rest)
      (triple_updateRow_free (fun _ _ => written.request)
        (fun _ met => met.1.subscriptions.unlocked id) ?_) fun _ => ?_
    · rintro db ⟨between, waiting⟩
      obtain ⟨old, visible, -⟩ := between.queued
      refine between.leave (fun k member => waiting k (List.mem_cons_of_mem _ member)) distinct
        between.subscriptions.update between.redemptions rfl rfl fun other => ?_
      refine (queued_updateSubscription between.subscriptions visible other).trans ?_
      split
      · rename_i own
        exact iff_of_false nofun fun left => left.1 own
      · rename_i apart
        exact (and_iff_right apart).symm
    · refine (triple_awaited fun _ _ remaining => remaining.toBooks).weaken (fun _ met => met) ?_
        fun _ met => met
      exact fun _ _ ⟨published, remaining⟩ => ⟨onward published, remaining⟩

theorem triple_redemptionExecuted {dealingDate : Date} {navPerShare : Decimal}
    {portfolioId : UUID} {paymentDays : Int} {r : RedemptionRequestRecord}
    (covers : RequestKind.redemption.Covers env (id :: rest)) :
    Triple (Remaining .redemption (some owner) start (id :: rest))
      (executeRedemption env (some owner) dealingDate navPerShare portfolioId paymentDays id r)
      (fun _ db => RequestKind.redemption.Covers env rest ∧
        Remaining .redemption (some owner) start rest db) (Books (some owner) start) := by
  rcases covers with stops | ⟨written, onward⟩
  · exact (stopped_executeRedemption stops).weaken (fun _ remaining => remaining)
      (fun _ _ impossible => impossible.elim) fun _ remaining => remaining.toBooks
  · have moved : ∀ {source target : RedemptionState}, Triple
        (Remaining .redemption (some owner) start (id :: rest))
        (ofExcept (applyRedemptionTransition source target))
        (fun s db => applyRedemptionTransition source target = .ok s ∧
          Remaining .redemption (some owner) start (id :: rest) db) (Books (some owner) start) :=
      triple_ofExcept.weaken (fun _ remaining => remaining) (fun _ _ remaining => remaining)
        fun _ remaining => remaining.toBooks
    refine .bind _ moved fun current => .assume fun _ => .bind _ moved fun target =>
      .assume fun decided => ?_
    obtain ⟨-, rfl⟩ := applyTransition_eq_ok.mp decided
    intro db remaining
    have distinct := remaining.distinct
    refine Triple.bind _ (((triple_redeemed rfl written.capital).keeping
      (keeps_processRedemption waiting_calm _)).weaken (fun _ met => met) (fun _ _ met => met)
        fun _ met => met.1) (fun _ => ?_) db remaining.first
    refine .bind (fun _ => Remaining .redemption (some owner) start rest)
      (triple_updateRow_free (fun _ _ => written.request)
        (fun _ met => met.1.redemptions.unlocked id) ?_) fun _ => ?_
    · rintro db ⟨between, waiting⟩
      obtain ⟨old, visible, -⟩ := between.queued
      refine between.leave (fun k member => waiting k (List.mem_cons_of_mem _ member)) distinct
        between.subscriptions between.redemptions.update rfl rfl fun other => ?_
      refine (queued_updateRedemption between.redemptions visible other).trans ?_
      split
      · rename_i own
        refine iff_of_false ?_ fun left => left.1 own
        rintro (queued | applied)
        · cases queued
        · cases applied
      · rename_i apart
        exact (and_iff_right apart).symm
    · refine (triple_awaited fun _ _ remaining => remaining.toBooks).weaken (fun _ met => met) ?_
        fun _ met => met
      exact fun _ _ ⟨published, remaining⟩ => ⟨onward published, remaining⟩

/-- A queue is executed to the end, or up to a request that raises. -/
theorem triple_covered {Row : Type} (execute : Nat → Row → Run Unit)
    (each : ∀ {id rest} r, kind.Covers env (id :: rest) →
      Triple (Remaining kind session start (id :: rest)) (execute id r)
        (fun _ db => kind.Covers env rest ∧ Remaining kind session start rest db)
        (Books session start)) {queue : List (Nat × Row)}
    (covers : kind.Covers env (queue.map (·.1))) :
    Triple (Remaining kind session start (queue.map (·.1)))
      (queue.forM fun (id, r) => execute id r) (fun _ => Books session start)
      (Books session start) := by
  induction queue with
  | nil => exact fun _ remaining => remaining.toBooks
  | cons entry rest ih => exact .bind _ (each entry.2 covers) fun _ => .assume fun later => ih later

/-- A request that is requeued stays in the queue. -/
theorem Remaining.requeue {queue : List Nat}
    (remaining : Remaining .redemption (some owner) start queue db) (member : id ∈ queue) :
    Remaining .redemption (some owner) start queue
      { db with redemptions := db.redemptions.update (some owner) id fun r =>
        { r with state := .queuedForNav } } := by
  have queued := remaining.waiting id member
  obtain ⟨old, visible, -⟩ := remaining.waiting id member
  have same : ∀ other, Queued (some owner) { db with
      redemptions := db.redemptions.update (some owner) id fun r =>
        { r with state := .queuedForNav } } other ↔ Queued (some owner) db other := by
    intro other
    refine (queued_updateRedemption remaining.redemptions visible other).trans ?_
    split
    · rename_i own
      exact own ▸ iff_of_true (.inl rfl) queued
    · exact Iff.rfl
  exact {
    toBooks := remaining.toBooks.rewrite remaining.subscriptions remaining.redemptions.update
      remaining.ownership rfl rfl same
    distinct := remaining.distinct
    waiting := fun k member => (same _).mpr (remaining.waiting k member) }

end Covered

/-! ## One run -/

section Run

variable {env : Env} {session : Option Nat} {owner : Nat} {start db s : Database}

theorem Untouched.unsaved (books : Books none start db) (untouched : Untouched none db s) :
    Books none start s :=
  books.rewrite (untouched.subscriptions ▸ books.subscriptions) untouched.redemptions
    (untouched.accounts ▸ books.ownership) (by rw [untouched.accounts]) untouched.transactions
    fun _ => queued_of_get (fun _ => by rw [untouched.subscriptions]) untouched.stored

theorem Untouched.rolledBack (books : Books none start db)
    (untouched : Untouched (some owner) db s) : Books none start (s.close owner) := by
  have subscriptions : s.subscriptions.HeldBy (some owner) :=
    untouched.subscriptions ▸ books.subscriptions.any
  refine books.rewrite subscriptions.close untouched.redemptions.close ?_ ?_ untouched.transactions
    fun _ => queued_of_get (fun id => ?_) fun id => ?_
  · intro a member
    obtain ⟨old, inside, rfl⟩ := List.mem_map.mp member
    rw [untouched.accounts] at inside
    exact (books.ownership old inside).any.release
  · rw [map_close fun _ _ => rfl, untouched.accounts]
  · have kept : (s.subscriptions.close owner).get none id = s.subscriptions.get none id :=
      Versioned.get_close_other nofun
    exact kept.trans (by rw [untouched.subscriptions])
  · have kept : (s.redemptions.close owner).get none id = s.redemptions.get none id :=
      Versioned.get_close_other nofun
    exact kept.trans (untouched.stored id)

/-- A run that is stopped at the first request of its queue has executed none. -/
theorem Execution.untouched (e : Execution) (free : db.redemptions.HeldBy none)
    (first : e.Starts env session db →
      ∀ id ∈ (e.queue session db).head?, Stops env (some (e.kind.notes id))) :
    Untouched session db (ended (e.run env session) db) := by
  obtain ⟨kind, dealingDate, navPerShare, portfolioId⟩ := e
  cases kind with
  | subscription =>
    have program : Triple (fun s => s = db ∧ Untouched session db s)
        (executeSubscriptions env session dealingDate navPerShare portfolioId)
        (fun _ => Untouched session db) (Untouched session db) := by
      refine triple_subscriptionRun (fun _ untouched => untouched) fun starts => ?_
      have stops := first starts
      simp only [Execution.queue] at stops
      cases queue : queuedSubscriptions session dealingDate db with
      | nil => exact fun _ untouched => untouched
      | cons entry rest =>
        rw [queue] at stops
        exact .bind _ (stopped_executeSubscription (stops entry.1 rfl)) fun _ _ impossible =>
          impossible.elim
    exact program.ended ⟨rfl, .refl free⟩
  | redemption =>
    have program : Triple (fun s => s = db ∧ Untouched session db s)
        (executeRedemptions env session dealingDate navPerShare portfolioId)
        (fun _ => Untouched session db) (Untouched session db) := by
      refine triple_redemptionRun (fun entry _ _ untouched _ => untouched.update entry.1 _)
        (fun _ untouched => untouched) fun starts paymentDays => ?_
      have stops := first starts
      simp only [Execution.queue] at stops
      cases queue : queuedRedemptions session dealingDate db with
      | nil => exact fun _ untouched => untouched
      | cons entry rest =>
        rw [queue] at stops
        exact .bind _ (stopped_executeRedemption (stops entry.1 rfl)) fun _ _ impossible =>
          impossible.elim
    exact program.ended ⟨rfl, .refl free⟩

/-- Before the run, what is in its queue is queued. -/
theorem Books.remaining (books : Books session start db) (e : Execution) :
    Remaining e.kind session start (e.queue session db) db where
  toBooks := books
  distinct := by
    unfold Execution.queue
    split
    · exact queuedSubscriptions_distinct _
    · exact queuedRedemptions_distinct _
  waiting id member := by
    obtain ⟨kind, dealingDate, navPerShare, portfolioId⟩ := e
    cases kind with
    | subscription =>
      obtain ⟨entry, inside, rfl⟩ := List.mem_map.mp member
      obtain ⟨visible, -, queued⟩ := mem_queuedSubscriptions.mp inside
      exact ⟨entry.2, visible, queued⟩
    | redemption =>
      obtain ⟨entry, inside, rfl⟩ := List.mem_map.mp member
      obtain ⟨visible, -, queued⟩ := mem_queuedRedemptions.mp inside
      exact ⟨entry.2, visible, queued⟩

/-- A run that covers its requests leaves the books in order. -/
theorem Execution.books (e : Execution) (books : Books (some owner) start db)
    (covers : e.Starts env (some owner) db → e.kind.Covers env (e.queue (some owner) db)) :
    Books (some owner) start (ended (e.run env (some owner)) db) := by
  have remaining := books.remaining e
  obtain ⟨kind, dealingDate, navPerShare, portfolioId⟩ := e
  cases kind with
  | subscription =>
    have program : Triple
        (fun s => s = db ∧ Remaining .subscription (some owner) start
          ((queuedSubscriptions (some owner) dealingDate db).map (·.1)) s)
        (executeSubscriptions env (some owner) dealingDate navPerShare portfolioId)
        (fun _ => Books (some owner) start) (Books (some owner) start) :=
      triple_subscriptionRun (fun _ remaining => remaining.toBooks) fun starts =>
        triple_covered
          (fun id r => executeSubscription env (some owner) dealingDate navPerShare portfolioId id r)
          (fun _ covers => triple_subscriptionExecuted covers) (covers starts)
    exact program.ended ⟨rfl, remaining⟩
  | redemption =>
    have program : Triple
        (fun s => s = db ∧ Remaining .redemption (some owner) start
          ((queuedRedemptions (some owner) dealingDate db).map (·.1)) s)
        (executeRedemptions env (some owner) dealingDate navPerShare portfolioId)
        (fun _ => Books (some owner) start) (Books (some owner) start) :=
      triple_redemptionRun
        (fun entry member _ remaining _ => remaining.requeue (List.mem_map_of_mem member))
        (fun _ remaining => remaining.toBooks) fun starts paymentDays =>
          triple_covered (fun id r => executeRedemption env (some owner) dealingDate navPerShare
            portfolioId paymentDays id r)
            (fun _ covers => triple_redemptionExecuted covers) (covers starts)
    exact program.ended ⟨rfl, remaining⟩

end Run

/-! ## Every run -/

section Runs

variable {start db : Database}

theorem Books.any {session : Option Nat} (books : Books none start db) : Books session start db :=
  books.rewrite books.subscriptions.any books.redemptions.any
    (fun a member => (books.ownership a member).any) rfl rfl fun _ =>
      queued_of_get (fun _ => books.subscriptions.get_eq _) fun _ => books.redemptions.get_eq _

theorem ExecutionRun.Covered.books {r : ExecutionRun} (covered : r.Covered db)
    (books : Books none start db) : Books none start (r.result db) := by
  obtain ⟨e, env, session⟩ := r
  cases session with
  | none =>
    refine Untouched.unsaved books (e.untouched books.redemptions fun starts => ?_)
    exact (covered starts).resolve_right nofun
  | some committed =>
    cases committed with
    | false =>
      refine Untouched.rolledBack books (e.untouched books.redemptions fun starts => ?_)
      exact (covered starts).resolve_right nofun
    | true =>
      refine Books.committed (e.books books.any fun starts => ?_)
      rcases covered starts with first | ⟨-, covers⟩
      · exact covers_of_head first
      · exact covers

theorem Awaiting.books (awaiting : Awaiting start) : Books none start start where
  subscriptions := awaiting.subscriptions
  redemptions := awaiting.redemptions
  ownership := awaiting.ownership
  back _ queued := queued
  once notes was := .inl ⟨was, awaiting.capital notes was, awaiting.ledger notes was⟩

theorem Books.executedOnce (books : Books none start db) : ExecutedOnce start db := by
  intro notes was
  rcases books.once notes was with ⟨queued, capital, ledger⟩ | ⟨left, capital, ledger⟩
  · simp [capital, ledger, queued]
  · simp [capital, ledger, left]

/-- Along runs that cover their requests, each request is executed at most once, and has left the
queue in the database exactly when its capital has moved. -/
theorem executed_once {runs : List ExecutionRun} {final : Database} (awaiting : Awaiting start)
    (covered : execution.Along ExecutionRun.Covered start runs)
    (ran : execution.run start runs = some final) : ExecutedOnce start final := by
  refine (System.invariant_along ?_ covered ran awaiting.books).executedOnce
  intro db r next books covered stepped
  cases stepped
  exact covered.books books

end Runs

/-! ## A dealing date -/

/-- A request to subscribe and one to redeem, of an investor who has an account. -/
def dealingDay : Database where
  subscriptions := [⟨some { investorId := firstInvestor, requestedAmount := 1000
                            state := .queuedForNav, submittedAt := 0, dealingDate := some 89 }, none⟩]
  redemptions := [⟨some { investorId := firstInvestor, requestedAmount := 400, state := .gateApplied
                          submittedAt := 0, noticeDate := 0, dealingDate := some 89 }, none⟩]
  accounts := [{ investorId := firstInvestor, shareClass := "default", endingCapital := 1000
                 sharesHeld := 10, effectiveDate := 0 }]

theorem dealingDay_awaiting : Awaiting dealingDay where
  subscriptions v member := by
    rw [List.mem_singleton.mp member]
    exact Version.heldBy_stored
  redemptions v member := by
    rw [List.mem_singleton.mp member]
    exact Version.heldBy_stored
  ownership a member := by
    rw [List.mem_singleton.mp member]
    exact Version.heldBy_stored
  capital _ _ := rfl
  ledger _ _ := rfl

def dealt (kind : RequestKind) (session : Option Bool) : ExecutionRun :=
  { call := ⟨kind, 89, 100, firstInvestor⟩, env := {}, session }

theorem dealt_covered (kind : RequestKind) (db : Database) : (dealt kind (some true)).Covered db :=
  fun _ => .inr ⟨rfl, covers_of_calm fun _ => rfl⟩

def dealings : List ExecutionRun :=
  [dealt .subscription (some true), dealt .redemption (some true),
    dealt .subscription (some true), dealt .redemption (some true)]

/-- Both requests are executed, and when the runs are repeated they are not executed again. -/
theorem dealt_once : ∃ final, execution.run dealingDay dealings = some final ∧
    ExecutedOnce dealingDay final ∧ capitalRows final (.subscriptionRequest 0) = 1 ∧
      capitalRows final (.redemptionRequest 0) = 1 := by
  have covered : execution.Along ExecutionRun.Covered dealingDay dealings :=
    ⟨dealt_covered _ _, dealt_covered _ _, dealt_covered _ _, dealt_covered _ _, trivial⟩
  exact ⟨_, rfl, executed_once dealingDay_awaiting covered rfl, by decide +kernel,
    by decide +kernel⟩

/-- Without a session the capital is committed and the request is not. -/
theorem dealt_twice : ¬ ∀ start runs final, Awaiting start →
    execution.run start runs = some final → ExecutedOnce start final := by
  intro once
  have queued : Queued none dealingDay (.subscriptionRequest 0) := ⟨_, rfl, rfl⟩
  have atMost := (once dealingDay [dealt .subscription none, dealt .subscription none] _
    dealingDay_awaiting rfl (.subscriptionRequest 0) queued).1
  revert atMost
  decide +kernel

end MiniHedge.InvestorOperations
