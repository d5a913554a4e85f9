import MiniHedge.CapitalAccounts.Service

/-! Rules for the operations on capital that say what each of them inserts.

A predicate of the state before an operation is carried to one after the row of
the account is inserted, and from there to the end. Where a statement may raise,
what the predicates come to is what holds of the exception.
-/

set_option autoImplicit false

namespace MiniHedge.CapitalAccounts

open MiniHedge.Python MiniHedge.Library MiniHedge.Shared
open MiniHedge.CashManagement (Date)

/-! ## The accounts but for their ownership -/

section Blind

variable {α : Type} {f : CapitalAccountRecord → α}

theorem map_modify {g : CapitalAccountRecord → CapitalAccountRecord} (blind : ∀ a, f (g a) = f a)
    (id : Nat) (accounts : List CapitalAccountRecord) :
    (accounts.modify id g).map f = accounts.map f := by
  apply List.ext_getElem?
  intro i
  rw [List.getElem?_map, List.getElem?_map, List.getElem?_modify]
  cases accounts[i]? with
  | none => rfl
  | some a =>
    by_cases here : id = i
    · simp [here, blind]
    · simp [here]

theorem map_writeOwnership (blind : ∀ a pct, f (a.withOwnership pct) = f a) (owner : Nat)
    (changes : List (Nat × Decimal)) (accounts : List CapitalAccountRecord) :
    (writeOwnership owner changes accounts).map f = accounts.map f := by
  unfold writeOwnership
  induction changes generalizing accounts with
  | nil => rfl
  | cons change rest ih =>
    rw [List.foldl_cons, ih, map_modify fun a => blind a _]

theorem map_commit (blind : ∀ a pct, f (a.withOwnership pct) = f a) (session : Option Nat)
    (db : Database) : (db.commit session).accounts.map f = db.accounts.map f := by
  rw [Database.commit, List.map_map]
  exact List.map_congr_left fun a _ => blind a _

theorem map_close (blind : ∀ a pct, f (a.withOwnership pct) = f a) (owner : Nat)
    (db : Database) : (db.close owner).accounts.map f = db.accounts.map f := by
  rw [Database.close, List.map_map]
  exact List.map_congr_left fun a _ => blind a _

end Blind

/-! ## What may interrupt an operation -/

/-- The operation is over before its account is inserted. -/
def Stops (env : Env) (notes : Option Notes) : Prop :=
  env.fails (.latestForInvestor notes) ≠ none ∨ env.fails (.insertAccount (.processing notes)) ≠ none

/-- No statement or event after the insert of the account raises. -/
structure Uninterrupted (env : Env) (notes : Option Notes) (type : TransactionType) : Prop where
  account : env.fails (.refreshAccount (.processing notes)) = none
  inserted : env.fails (.insertTransaction (.processing notes) type) = none
  refreshed : env.fails (.refreshTransaction (.processing notes) type) = none
  cash : env.hasCashService → ∀ statement, env.fails (.cash notes statement) = none
  listed : env.fails (.latestByFund notes) = none
  flushed : env.fails (.flushOwnership notes) = none
  published : env.fails (.publishCapital notes) = none

/-- A predicate that neither cash nor ownership disturbs. -/
structure Calm (session : Option Nat) (post : Database → Prop) : Prop where
  commit : ∀ db, post db → post (db.commit session)
  cash : ∀ db cash, post db → post { db with cash }
  ownership : ∀ db owner changes, session = some owner → post db →
    post { db with accounts := writeOwnership owner changes db.accounts }

/-- What the rest of an operation makes of the predicate that its row has left. -/
structure Completes (env : Env) (session : Option Nat) (notes : Option Notes)
    (type : TransactionType) (row post raised : Database → Prop) : Prop where
  recorded : ∀ db (t : CapitalTransactionRecord), t.notes = notes → row db →
    post ({ db with transactions := db.transactions ++ [t] }.commit session)
  calm : Calm session post
  unrecorded : ¬ Uninterrupted env notes type → ∀ db, row db → raised db
  failed : ∀ db, (Uninterrupted env notes type → ∃ a ∈ db.accounts, a.ownershipPct.locked session) →
    post db → raised db

section Rules

variable {env : Env} {session : Option Nat} {pre row post raised : Database → Prop}

theorem triple_insertAccount {subject : Subject} {a : CapitalAccountRecord}
    (refused : env.fails (.insertAccount subject) ≠ none → ∀ db, pre db → raised db)
    (inserted : env.fails (.insertAccount subject) = none → ∀ db, pre db →
      row ({ db with accounts := db.accounts ++ [a.columns] }.commit session))
    (unread : env.fails (.refreshAccount subject) ≠ none → ∀ db, row db → raised db) :
    Triple pre (insertAccount env session subject a) (fun _ => row) raised := by
  refine .bind _ (triple_awaited refused) fun _ => .assume fun allowed => ?_
  refine .bind (fun _ => pre) (fun _ met => met) fun _ => ?_
  refine .bind (fun _ => row) (.modify fun db met => inserted allowed db met) fun _ => ?_
  exact .bind _ (triple_awaited unread) fun _ _ met => met.2

theorem triple_insertTransaction {subject : Subject} {t : CapitalTransactionRecord}
    (refused : env.fails (.insertTransaction subject t.transactionType) ≠ none →
      ∀ db, row db → raised db)
    (recorded : ∀ db, row db →
      post ({ db with transactions := db.transactions ++ [t.columns] }.commit session))
    (unread : env.fails (.refreshTransaction subject t.transactionType) ≠ none →
      ∀ db, post db → raised db) :
    Triple row (insertTransaction env session subject t) (fun _ => post) raised := by
  refine .bind _ (triple_awaited refused) fun _ => .assume fun _ => ?_
  refine .bind (fun _ => row) (fun _ met => met) fun _ => ?_
  refine .bind (fun _ => post) (.modify recorded) fun _ => ?_
  exact .bind _ (triple_awaited unread) fun _ _ met => met.2

theorem triple_moveCash (commit : ∀ db, post db → post (db.commit session))
    (cash : ∀ db cash, post db → post { db with cash }) {notes : Option Notes}
    {m : CashManagement.Movement}
    (failed : ∀ statement, env.fails (.cash notes statement) ≠ none → ∀ db, post db → raised db) :
    Triple post (moveCash env session notes m) (fun _ => post) raised := by
  have awaits : ∀ statement,
      Triple post (await env (.cash notes statement)) (fun _ => post) raised := fun statement =>
    (triple_awaited (failed statement)).weaken (fun _ met => met) (fun _ _ met => met.2)
      fun _ met => met
  refine .bind _ (awaits _) fun _ => .bind (fun _ => post) (fun _ met => met) fun _ => ?_
  refine .bind _ (awaits _) fun _ => .bind _ (awaits _) fun _ => ?_
  refine .bind (fun _ => post) (.modify fun db met => commit _ (cash db _ met)) fun _ => ?_
  refine .bind _ (awaits _) fun _ => ?_
  exact .modify fun db met => commit _ (cash db _ met)

theorem triple_recomputeAllOwnership (calm : Calm session post) {notes : Option Notes}
    {businessDate : Date}
    (unlisted : env.fails (.latestByFund notes) ≠ none → ∀ db, post db → raised db)
    (unflushed : env.fails (.flushOwnership notes) ≠ none → ∀ db, post db → raised db)
    (locked : ∀ db, (∃ a ∈ db.accounts, a.ownershipPct.locked session) → post db → raised db) :
    Triple post (recomputeAllOwnership env session notes businessDate) (fun _ => post) raised := by
  refine .bind _ (triple_awaited unlisted) fun _ => .bind _ triple_get fun db => ?_
  cases session with
  | none => exact fun s met => met.2.2
  | some owner =>
    dsimp only
    split
    · refine .bind _ (triple_awaited fun failing s met => unflushed failing s met.2.2) fun _ => ?_
      split
      · rename_i conflict
        rintro s ⟨-, rfl, -, met⟩
        obtain ⟨entry, changed, waits⟩ := List.any_eq_true.mp conflict
        have listed : entry ∈ db.accounts.zipIdx :=
          List.mem_of_mem_filter (List.mem_of_mem_filter (List.mem_of_mem_filter changed))
        exact locked db ⟨entry.1, List.fst_mem_of_mem_zipIdx listed, waits⟩ met
      · exact .modify fun s met => calm.ownership s owner _ rfl met.2.2.2
    · exact fun s met => met.2.2

theorem triple_complete {p : Processing} {accountId : Nat} {type : TransactionType}
    {amount shares : Decimal} {movement : UUID → Nat → CashManagement.Movement}
    (completes : Completes env session p.notes type row post raised) :
    Triple row (p.complete env session accountId type amount shares movement) (fun _ => post)
      raised := by
  have interrupted : ¬ Uninterrupted env p.notes type → ∀ db, post db → raised db :=
    fun broken db => completes.failed db fun whole => absurd whole broken
  have rest : Triple post (recomputeAllOwnership env session p.notes p.businessDate >>= fun _ =>
      await env (.publishCapital p.notes)) (fun _ => post) raised := by
    refine .bind (fun _ => post) (triple_recomputeAllOwnership completes.calm
      (fun failing => interrupted fun whole => failing whole.listed)
      (fun failing => interrupted fun whole => failing whole.flushed)
      fun db waits => completes.failed db fun _ => waits) fun _ => ?_
    refine (triple_awaited fun failing => interrupted fun whole => failing whole.published).weaken
      (fun _ met => met) (fun _ _ met => met.2) fun _ met => met
  refine .bind (fun _ => post) (triple_insertTransaction
    (fun failing => completes.unrecorded fun whole => failing whole.inserted)
    (fun db met => completes.recorded db _ rfl met)
    (fun failing => interrupted fun whole => failing whole.refreshed)) fun transactionId => ?_
  dsimp only
  split
  · rename_i portfolioId service _
    refine .bind (fun _ => post) (triple_moveCash completes.calm.commit completes.calm.cash fun statement failing =>
      interrupted fun whole => failing (whole.cash service statement)) fun _ => rest
  · exact rest

/-- The row of a subscription is computed from the one that the investor has. -/
theorem triple_processSubscription {p : Processing} (refused : ∀ db, pre db → raised db)
    (inserted : ¬ Stops env p.notes → ∀ db, pre db →
      row ({ db with accounts := db.accounts ++ [(p.subscribed (latestForInvestor db.accounts
        p.investorId p.shareClass (env.tie p.notes))).columns] }.commit session))
    (completes : Completes env session p.notes .subscription row post raised) :
    Triple pre (processSubscription env session p) (fun _ => post) raised := by
  refine .bind _ (triple_awaited fun _ => refused) fun _ => .assume fun listed => ?_
  refine .bind _ triple_get fun seen => ?_
  refine .bind (fun _ => row) (triple_insertAccount ?_ ?_ ?_) fun _ => triple_complete completes
  · exact fun _ db met => refused db met.2
  · rintro allowed db ⟨rfl, met⟩
    exact inserted (by simp [Stops, listed, allowed]) seen met
  · exact fun failing => completes.unrecorded fun whole => failing whole.account

/-- A redemption passes its checks before it writes a row; unless it is stopped, only what they
refuse is left as it was. -/
theorem triple_processRedemption {p : Processing}
    (refused : ∀ db, pre db → (Stops env p.notes ∨ ∀ a, p.checkRedemption (latestForInvestor
      db.accounts p.investorId p.shareClass (env.tie p.notes)) ≠ .ok a) → raised db)
    (inserted : ¬ Stops env p.notes → ∀ db a, pre db →
      p.checkRedemption (latestForInvestor db.accounts p.investorId p.shareClass
        (env.tie p.notes)) = .ok a →
      row ({ db with accounts := db.accounts ++ [(p.redeemed a).columns] }.commit session))
    (completes : Completes env session p.notes .redemption row post raised) :
    Triple pre (processRedemption env session p) (fun _ => post) raised := by
  refine .bind _ (triple_awaited fun failing db met => refused db met (.inl (.inl failing))) fun _ =>
    .assume fun listed => ?_
  refine .bind _ triple_get fun seen => ?_
  cases checked : p.checkRedemption
      (latestForInvestor seen.accounts p.investorId p.shareClass (env.tie p.notes)) with
  | error e =>
    rintro db ⟨rfl, met⟩
    refine refused _ met (.inr fun a passed => ?_)
    cases checked.symm.trans passed
  | ok existing =>
    refine .bind (fun a db => a = existing ∧ seen = db ∧ pre db) (fun _ met => ⟨rfl, met⟩) fun _ =>
      .assume fun same => ?_
    subst same
    refine .bind (fun _ => row) (triple_insertAccount ?_ ?_ ?_) fun _ => triple_complete completes
    · exact fun failing db met => refused db met.2 (.inl (.inr failing))
    · rintro allowed db ⟨rfl, met⟩
      exact inserted (by simp [Stops, listed, allowed]) seen _ met checked
    · exact fun failing => completes.unrecorded fun whole => failing whole.account

end Rules

end MiniHedge.CapitalAccounts
