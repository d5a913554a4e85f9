import MiniHedge.InvestorOperations.Redemption
import MiniHedge.InvestorOperations.Subscription
import MiniHedge.Library.Transition

/-! Calls of the services one after the other, and what becomes of their sessions. -/

set_option autoImplicit false

namespace MiniHedge.InvestorOperations

open MiniHedge.Library MiniHedge.Shared MiniHedge.Python
open MiniHedge.CapitalAccounts (Processing DailyAllocation processSubscription processRedemption allocateDaily)
open MiniHedge.CashManagement (Date)

inductive DeskCall where
  | subscription (c : SubscriptionCall)
  | redemption (c : RedemptionCall)
  | processSubscription (p : Processing)
  | processRedemption (p : Processing)
  | allocateDaily (d : DailyAllocation)
  deriving DecidableEq, Repr

def DeskCall.run (env : Env) (session : Option Nat) : DeskCall → Run Unit
  | .subscription c => c.run env session
  | .redemption c => c.run env session
  | .processSubscription p => CapitalAccounts.processSubscription env session p
  | .processRedemption p => CapitalAccounts.processRedemption env session p
  | .allocateDaily d => do let _ ← CapitalAccounts.allocateDaily env session d

/-- A call, with the session that it is given, or what the owner of a session does with it. -/
inductive DeskEvent where
  | call (session : Option Nat) (env : Env) (c : DeskCall)
  | commit (owner : Nat)
  | close (owner : Nat)

/-- A call is over when it has returned or raised. -/
def DeskEvent.result (db : Database) : DeskEvent → Database
  | .call session env c => ended (c.run env session) db
  | .commit owner => db.commit (some owner)
  | .close owner => db.close owner

def desk : System Database DeskEvent where
  step db event := some (event.result db)

theorem desk_step {db next : Database} {event : DeskEvent} (stepped : desk.step db event = some next) :
    next = event.result db :=
  (Option.some.inj stepped).symm

/-! ## What a subscription has been through when it is executed -/

/-! ## What a call does to a request -/

/-- The moves of the calls, each from the states in which the table allows it. -/
inductive SubscriptionCall.Moved (env : Env) : SubscriptionCall → Nat →
    SubscriptionRequestRecord → SubscriptionRequestRecord → Prop where
  | decidedKyc {id : Nat} {approved : Bool} {decisionBy notes : String}
      {r : SubscriptionRequestRecord} (pending : r.state = .pendingKyc) :
      Moved env (.decideKyc id approved decisionBy notes) id r
        { r with
          state := if approved then .kycApproved else .kycRejected
          kycDecisionAt := env.now, kycDecisionBy := decisionBy, kycNotes := notes }
  | reviewedOps {id : Nat} {decisionBy notes : String} {r : SubscriptionRequestRecord}
      (pending : r.state = .kycApproved ∨ r.state = .pendingOpsReview) :
      Moved env (.reviewOps id true decisionBy notes) id r
        { r with
          state := .pendingGpApproval
          opsDecisionAt := env.now, opsDecisionBy := decisionBy, opsNotes := notes }
  | refusedOps {id : Nat} {decisionBy notes : String} {r : SubscriptionRequestRecord}
      (running : ¬ r.state.Terminal) :
      Moved env (.reviewOps id false decisionBy notes) id r
        { r with
          state := .cancelled
          opsDecisionAt := env.now, opsDecisionBy := decisionBy, opsNotes := notes }
  | decidedGp {id : Nat} {approved : Bool} {decisionBy : String} {r : SubscriptionRequestRecord}
      {dealing : Option Date} (pending : r.state = .pendingGpApproval) :
      Moved env (.decideGp id approved decisionBy) id r
        { r with
          state := if approved then .approved else .rejected
          gpDecisionAt := env.now, gpDecisionBy := decisionBy
          dealingDate := dealing <|> r.dealingDate }
  | receivedWire {id : Nat} {wireReference : String} {r : SubscriptionRequestRecord}
      (approved : r.state = .approved) :
      Moved env (.receiveWire id wireReference) id r
        { r with state := .queuedForNav, wireConfirmedAt := env.now, wireReference }
  | executed {id : Nat} {dealingDate : Date} {navPerShare : Decimal} {portfolioId : UUID}
      {shares : Decimal} {r : SubscriptionRequestRecord} (queued : r.state = .queuedForNav) :
      Moved env (.execute dealingDate navPerShare portfolioId) id r
        { r with state := .executed, executedAt := env.now, navPerShare := some navPerShare
                 sharesIssued := some shares : SubscriptionRequestRecord }.columns
  | cancelled {id : Nat} {reason : String} {r : SubscriptionRequestRecord}
      (running : ¬ r.state.Terminal) :
      Moved env (.cancel id reason) id r
        { r with state := .cancelled, cancelledAt := env.now, cancellationReason := reason }

def SubscriptionRequestRecord.Finished (r : SubscriptionRequestRecord) : Prop := r.state.Terminal

theorem SubscriptionCall.Moved.running {env : Env} {c : SubscriptionCall} {id : Nat}
    {old new : SubscriptionRequestRecord} (moved : c.Moved env id old new) : ¬ old.Finished := by
  unfold SubscriptionRequestRecord.Finished
  cases moved with
  | refusedOps running | cancelled running => exact running
  | reviewedOps pending => rcases pending with state | state <;> rw [state] <;> decide
  | decidedKyc state | decidedGp state | receivedWire state | executed state =>
    rw [state]
    decide

/-- What a call has made of the requests. -/
structure Turned (moved : Nat → SubscriptionRequestRecord → SubscriptionRequestRecord → Prop)
    (session : Option Nat) (t t' : Versioned SubscriptionRequestRecord) : Prop where
  settled : t'.Settled SubscriptionRequestRecord.Finished
  lasts : t.Lasts SubscriptionRequestRecord.Finished t'
  versions : ∀ observer id row, t'.get observer id = some row →
    (∃ observer, t.get observer id = some row) ∨ row.state = .pendingKyc ∨
      ∃ old, t.get session id = some old ∧ moved id old row ∧ t'.get session id = some row

section Turned

variable {moved : Nat → SubscriptionRequestRecord → SubscriptionRequestRecord → Prop}
  {session : Option Nat} {t t' : Versioned SubscriptionRequestRecord}

theorem Turned.refl (settled : t.Settled SubscriptionRequestRecord.Finished) :
    Turned moved session t t :=
  ⟨settled, .refl, fun observer _ _ visible => .inl ⟨observer, visible⟩⟩

theorem Turned.commit (turned : Turned moved session t t') :
    Turned moved session t (t'.commit session) where
  settled := turned.settled.commit
  lasts := turned.lasts.trans turned.settled.lasts_commit
  versions observer id row visible := by
    obtain ⟨before, seen⟩ := Versioned.get_commit visible
    rw [Versioned.get_commit_own]
    exact turned.versions before id row seen

theorem Turned.insert {r : SubscriptionRequestRecord} (turned : Turned moved session t t')
    (first : r.state = .pendingKyc) : Turned moved session t (t'.insert session r) where
  settled := turned.settled.insert
  lasts := turned.lasts.trans Versioned.lasts_insert
  versions observer id row visible := by
    rcases Versioned.get_insert visible with old | ⟨-, -, -, rfl⟩
    · rcases turned.versions observer id row old with before | started | ⟨old, seen, step, here⟩
      · exact .inl before
      · exact .inr (.inl started)
      · exact .inr (.inr ⟨old, seen, step, Versioned.get_insert_old here⟩)
    · exact .inr (.inl first)

/-- An update of a row that the session saw before the call and sees still. -/
theorem Turned.update {id : Nat} {r : SubscriptionRequestRecord}
    {change : SubscriptionRequestRecord → SubscriptionRequestRecord}
    (turned : Turned moved session t t') (free : t'.locked session id = false)
    (before : t.get session id = some r) (visible : t'.get session id = some r)
    (step : moved id r (change r)) (running : ¬ r.Finished) :
    Turned moved session t (t'.update session id change) where
  settled := turned.settled.update free visible running
  lasts := turned.lasts.trans (Versioned.lasts_update free visible running)
  versions observer k row seen := by
    by_cases own : id = k
    · subst own
      have after := seen
      rw [Versioned.get_update free visible] at after
      split at after
      · rename_i written
        rw [written.2] at seen
        cases after
        exact .inr (.inr ⟨r, before, step, seen⟩)
      · rcases turned.versions observer id row after with old | started | ⟨old, -, -, here⟩
        · exact .inl old
        · exact .inr (.inl started)
        · rw [visible] at here
          cases here
          exact .inl ⟨session, before⟩
    · rw [Versioned.get_update_other own] at seen ⊢
      exact turned.versions observer k row seen

end Turned

/-! ## Every call turns the requests -/

section Calls

variable {env : Env} {session : Option Nat} {db : Database}

/-- The state of the program is one whose requests the call has turned. -/
def TurnedFrom (env : Env) (session : Option Nat) (c : SubscriptionCall) (db s : Database) : Prop :=
  Turned (c.Moved env) session db.subscriptions s.subscriptions

theorem triple_advanceSubscription {c : SubscriptionCall} {id : Nat}
    {decision : SubscriptionRequestRecord → Run (SubscriptionRequestRecord → SubscriptionRequestRecord)}
    (settled : db.subscriptions.Settled SubscriptionRequestRecord.Finished)
    (decided : ∀ record, Triple (· = db) (decision record)
      (fun change s => c.Moved env id record (change record) ∧ s = db) (· = db)) :
    Triple (· = db) (advanceSubscription env session id decision)
      (fun _ => TurnedFrom env session c db) (TurnedFrom env session c db) :=
  triple_advance decided (Turned.refl settled) fun _ _ visible step free =>
    (Turned.refl settled).update free visible visible step step.running

theorem triple_recordKycDecision
    (settled : db.subscriptions.Settled SubscriptionRequestRecord.Finished) (id : Nat)
    (approved : Bool) (decisionBy notes : String) :
    Triple (· = db) (recordKycDecision env session id approved decisionBy notes)
      (fun _ => TurnedFrom env session (.decideKyc id approved decisionBy notes) db)
      (TurnedFrom env session (.decideKyc id approved decisionBy notes) db) := by
  refine triple_advanceSubscription settled fun record =>
    .bind _ triple_ofExcept fun target s decided => ⟨?_, decided.2⟩
  obtain ⟨allowed, rfl⟩ := applyTransition_eq_ok.mp decided.1
  refine .decidedKyc ?_
  revert allowed
  cases record.state <;> cases approved <;> decide

theorem triple_opsReview (settled : db.subscriptions.Settled SubscriptionRequestRecord.Finished)
    (id : Nat) (approved : Bool) (decisionBy notes : String) :
    Triple (· = db) (opsReview env session id approved decisionBy notes)
      (fun _ => TurnedFrom env session (.reviewOps id approved decisionBy notes) db)
      (TurnedFrom env session (.reviewOps id approved decisionBy notes) db) := by
  refine triple_advanceSubscription settled fun record => .bind _ triple_ofExcept fun current => ?_
  refine .assume fun first => .bind _ triple_ofExcept fun target s decided => ⟨?_, decided.2⟩
  obtain ⟨allowed, rfl⟩ := applyTransition_eq_ok.mp decided.1
  have source : current = if record.state = .kycApproved then .pendingOpsReview else record.state := by
    split at first
    · rename_i here
      rw [if_pos here]
      exact (applyTransition_eq_ok.mp first).2
    · rename_i there
      rw [if_neg there]
      cases first
      rfl
  subst source
  cases approved with
  | true =>
    refine .reviewedOps ?_
    revert allowed
    cases record.state <;> decide
  | false =>
    refine .refusedOps ?_
    revert allowed
    cases record.state <;> decide

theorem triple_gpDecision (settled : db.subscriptions.Settled SubscriptionRequestRecord.Finished)
    (id : Nat) (approved : Bool) (decisionBy : String) :
    Triple (· = db) (gpDecision env session id approved decisionBy)
      (fun _ => TurnedFrom env session (.decideGp id approved decisionBy) db)
      (TurnedFrom env session (.decideGp id approved decisionBy) db) := by
  refine triple_advanceSubscription settled fun record => .bind _ triple_ofExcept fun target => ?_
  refine .assume fun decided => ?_
  obtain ⟨allowed, rfl⟩ := applyTransition_eq_ok.mp decided
  have pending : record.state = .pendingGpApproval := by
    revert allowed
    cases record.state <;> cases approved <;> decide
  dsimp only
  split
  · rename_i accepted
    subst accepted
    refine .bind (fun _ => (· = db)) (keeps_nextDealingDate _) fun dealing s same => ?_
    exact ⟨.decidedGp pending, same⟩
  · rename_i refused
    rw [Bool.not_eq_true] at refused
    subst refused
    exact fun s same => ⟨.decidedGp pending, same⟩

theorem walk_to_queue {current target : SubscriptionState}
    (walked : walkSubscription current [.pendingWire, .wireConfirmed, .queuedForNav] = .ok target) :
    current = .approved ∧ target = .queuedForNav := by
  cases current with
  | approved =>
    cases walked
    exact ⟨rfl, rfl⟩
  | _ => cases walked

theorem triple_confirmWire (settled : db.subscriptions.Settled SubscriptionRequestRecord.Finished)
    (id : Nat) (wireReference : String) :
    Triple (· = db) (confirmWire env session id wireReference)
      (fun _ => TurnedFrom env session (.receiveWire id wireReference) db)
      (TurnedFrom env session (.receiveWire id wireReference) db) := by
  refine triple_advanceSubscription settled fun record =>
    .bind _ triple_ofExcept fun target s decided => ⟨?_, decided.2⟩
  obtain ⟨approved, rfl⟩ := walk_to_queue decided.1
  exact .receivedWire approved

theorem triple_cancelSubscription
    (settled : db.subscriptions.Settled SubscriptionRequestRecord.Finished) (id : Nat)
    (reason : String) :
    Triple (· = db) (cancelSubscription env session id reason)
      (fun _ => TurnedFrom env session (.cancel id reason) db)
      (TurnedFrom env session (.cancel id reason) db) := by
  refine triple_advanceSubscription settled fun record =>
    .bind _ triple_ofExcept fun target s decided => ⟨?_, decided.2⟩
  obtain ⟨allowed, rfl⟩ := applyTransition_eq_ok.mp decided.1
  refine .cancelled ?_
  revert allowed
  cases record.state <;> decide

theorem triple_submitSubscription
    (settled : db.subscriptions.Settled SubscriptionRequestRecord.Finished) (investorId : UUID)
    (amount : Decimal) (shareClass : String) :
    Triple (· = db) (submitSubscription env session investorId amount shareClass)
      (fun _ => TurnedFrom env session (.submit investorId amount shareClass) db)
      (TurnedFrom env session (.submit investorId amount shareClass) db) := by
  have left : ∀ s, s = db → TurnedFrom env session (.submit investorId amount shareClass) db s := by
    rintro s rfl
    exact .refl settled
  refine .bind (fun _ => (· = db)) ((keeps_termsByShareClass _).weaken (fun _ same => same)
    (fun _ _ same => same) left) fun terms => ?_
  refine .bind (fun _ => (· = db)) ((keeps_ofExcept _).weaken (fun _ same => same)
    (fun _ _ same => same) left) fun _ => ?_
  refine .bind _ (triple_ofExcept.weaken (fun _ same => same) (fun _ _ same => same) left)
    fun state => .assume fun decided => ?_
  obtain ⟨-, rfl⟩ := applyTransition_eq_ok.mp decided
  refine .bind (fun _ => TurnedFrom env session (.submit investorId amount shareClass) db) ?_
    fun id => .bind (fun _ => TurnedFrom env session (.submit investorId amount shareClass) db)
      (triple_await (fun _ turned => turned) _) fun _ _ turned => turned
  refine .bind (fun _ => (· = db)) (triple_await left _) fun _ => .bind _ triple_get fun seen => ?_
  refine .bind (fun _ => TurnedFrom env session (.submit investorId amount shareClass) db)
    (.modify ?_) fun _ _ turned => turned
  rintro s ⟨rfl, rfl⟩
  exact (Turned.refl settled).insert rfl

/-- What holds of the rest of the queue while the first requests have been executed. -/
structure Executing (env : Env) (session : Option Nat) (c : SubscriptionCall) (db : Database)
    (queue : List (Nat × SubscriptionRequestRecord)) (s : Database) : Prop where
  turned : TurnedFrom env session c db s
  distinct : (queue.map (·.1)).Nodup
  waiting : ∀ id r, (id, r) ∈ queue → r.state = .queuedForNav ∧
    db.subscriptions.get session id = some r ∧ s.subscriptions.get session id = some r

theorem executing_calm {c : SubscriptionCall} {queue : List (Nat × SubscriptionRequestRecord)} :
    Undisturbed session (Executing env session c db queue) where
  commit _ held := ⟨held.turned.commit, held.distinct, fun id r member =>
    have ⟨queued, before, visible⟩ := held.waiting id r member
    ⟨queued, before, Versioned.get_commit_own.trans visible⟩⟩
  accounts _ _ held := ⟨held.turned, held.distinct, held.waiting⟩
  transactions _ _ held := ⟨held.turned, held.distinct, held.waiting⟩
  cash _ _ held := ⟨held.turned, held.distinct, held.waiting⟩

theorem triple_executeSubscription {dealingDate : Date} {navPerShare : Decimal} {portfolioId : UUID}
    (id : Nat) (r : SubscriptionRequestRecord) (rest : List (Nat × SubscriptionRequestRecord)) :
    Triple (Executing env session (.execute dealingDate navPerShare portfolioId) db ((id, r) :: rest))
      (executeSubscription env session dealingDate navPerShare portfolioId id r)
      (fun _ => Executing env session (.execute dealingDate navPerShare portfolioId) db rest)
      (TurnedFrom env session (.execute dealingDate navPerShare portfolioId) db) := by
  refine .bind _ (triple_ofExcept.weaken (fun _ held => held) (fun _ _ held => held)
    fun _ held => held.turned) fun target => .assume fun decided => ?_
  obtain ⟨-, rfl⟩ := applyTransition_eq_ok.mp decided
  refine .bind (fun _ => Executing env session _ db ((id, r) :: rest))
    ((CapitalAccounts.keeps_processSubscription executing_calm _).weaken (fun _ held => held)
      (fun _ _ held => held) fun _ held => held.turned) fun _ => ?_
  refine .bind (fun _ => Executing env session _ db rest)
    (triple_updateRow (fun _ held => held.turned) fun s held free => ?_) fun _ =>
      triple_await (fun _ held => held.turned) _
  obtain ⟨queued, before, visible⟩ := held.waiting id r List.mem_cons_self
  obtain ⟨fresh, distinct⟩ := List.nodup_cons.mp held.distinct
  have running : ¬ r.Finished := by
    unfold SubscriptionRequestRecord.Finished
    rw [queued]
    decide
  refine ⟨held.turned.update free before visible (.executed queued) running, distinct, ?_⟩
  intro k other member
  obtain ⟨waits, first, now⟩ := held.waiting k other (List.mem_cons_of_mem _ member)
  refine ⟨waits, first, ?_⟩
  have apart : id ≠ k := by
    rintro rfl
    exact fresh (List.mem_map.mpr ⟨(id, other), member, rfl⟩)
  exact (Versioned.get_update_other apart).trans now

theorem mem_queuedSubscriptions {dealingDate : Date} {id : Nat} {r : SubscriptionRequestRecord} :
    (id, r) ∈ queuedSubscriptions session dealingDate db ↔
      db.subscriptions.get session id = some r ∧ r.dealingDate = some dealingDate ∧
        r.state = .queuedForNav := by
  simp [queuedSubscriptions, subscriptionsDealingOn, Versioned.mem_rows, and_assoc]

theorem queuedSubscriptions_distinct (dealingDate : Date) :
    ((queuedSubscriptions session dealingDate db).map (·.1)).Nodup := by
  refine (List.Sublist.map _ List.filter_sublist).nodup ?_
  refine ((sortOn_perm _ _).map _).nodup_iff.mpr ?_
  exact (List.Sublist.map _ List.filter_sublist).nodup Versioned.rows_distinct

theorem triple_executeSubscriptions
    (settled : db.subscriptions.Settled SubscriptionRequestRecord.Finished) (dealingDate : Date)
    (navPerShare : Decimal) (portfolioId : UUID) :
    Triple (· = db) (executeSubscriptions env session dealingDate navPerShare portfolioId)
      (fun _ => TurnedFrom env session (.execute dealingDate navPerShare portfolioId) db)
      (TurnedFrom env session (.execute dealingDate navPerShare portfolioId) db) := by
  have left : ∀ s, s = db →
      TurnedFrom env session (.execute dealingDate navPerShare portfolioId) db s := by
    rintro s rfl
    exact .refl settled
  unfold executeSubscriptions
  split
  · exact fun s same => left s same
  · refine .bind (fun _ => (· = db)) (triple_await left _) fun _ => .bind _ triple_get fun seen => ?_
    refine (Triple.forM (fun (id, r) rest => triple_executeSubscription id r rest) _).weaken ?_
      (fun _ _ held => held.turned) fun _ turned => turned
    rintro s ⟨rfl, rfl⟩
    exact ⟨.refl settled, queuedSubscriptions_distinct dealingDate, fun id r member =>
      have ⟨visible, _, queued⟩ := mem_queuedSubscriptions.mp member
      ⟨queued, visible, visible⟩⟩

/-- Every call turns the requests. -/
theorem SubscriptionCall.turned (env : Env) (session : Option Nat)
    (settled : db.subscriptions.Settled SubscriptionRequestRecord.Finished) (c : SubscriptionCall) :
    TurnedFrom env session c db (ended (c.run env session) db) := by
  have done : ∀ {α : Type} {x : Run α}, Triple (· = db) x (fun _ => TurnedFrom env session c db)
      (TurnedFrom env session c db) →
      TurnedFrom env session c db (ended (x >>= fun _ => pure ()) db) := fun triple =>
    (Triple.bind (fun _ => TurnedFrom env session c db) triple fun _ _ turned => turned).ended rfl
  cases c with
  | submit investorId amount shareClass =>
    exact done (triple_submitSubscription settled investorId amount shareClass)
  | decideKyc id approved decisionBy notes =>
    exact done (triple_recordKycDecision settled id approved decisionBy notes)
  | reviewOps id approved decisionBy notes =>
    exact done (triple_opsReview settled id approved decisionBy notes)
  | decideGp id approved decisionBy => exact done (triple_gpDecision settled id approved decisionBy)
  | receiveWire id wireReference => exact done (triple_confirmWire settled id wireReference)
  | execute dealingDate navPerShare portfolioId =>
    exact (triple_executeSubscriptions settled dealingDate navPerShare portfolioId).ended rfl
  | cancel id reason => exact done (triple_cancelSubscription settled id reason)

end Calls

/-! ## What a request has passed -/

abbrev Moment := Database × DeskEvent × Database

/-- A stage of the approval: the moves of the table that it takes, and the call
that makes them. -/
structure Stage where
  source : SubscriptionState
  path : List SubscriptionState
  allowed : Walk SubscriptionState.transitions source path
  call : Nat → SubscriptionCall → Prop
  recorded : SubscriptionRequestRecord → Prop := fun _ => True

/-- The state that the stage leads to. -/
def Stage.target (stage : Stage) : SubscriptionState := stage.path.getLastD stage.source

def kycApproval : Stage where
  source := .pendingKyc
  path := [.kycApproved]
  allowed := by decide
  call id c := ∃ decisionBy notes, c = .decideKyc id true decisionBy notes

def opsApproval : Stage where
  source := .kycApproved
  path := [.pendingOpsReview, .pendingGpApproval]
  allowed := by decide
  call id c := ∃ decisionBy notes, c = .reviewOps id true decisionBy notes

def gpApproval : Stage where
  source := .pendingGpApproval
  path := [.approved]
  allowed := by decide
  call id c := ∃ decisionBy, c = .decideGp id true decisionBy

def wireConfirmation (reference : String) : Stage where
  source := .approved
  path := [.pendingWire, .wireConfirmed, .queuedForNav]
  allowed := by decide
  call id c := c = .receiveWire id reference
  recorded r := r.wireReference = some reference

def approvals (reference : String) : List Stage :=
  [kycApproval, opsApproval, gpApproval, wireConfirmation reference]

/-- The approvals, between the submission and the execution, are moves of the table. -/
theorem walk_approvals (reference : String) : Walk SubscriptionState.transitions .draft
    ([.pendingKyc] ++ (approvals reference).flatMap (·.path) ++ [.executed]) := by
  change Walk SubscriptionState.transitions .draft [.pendingKyc, .kycApproved, .pendingOpsReview,
    .pendingGpApproval, .approved, .pendingWire, .wireConfirmed, .queuedForNav, .executed]
  decide

/-- The call of the stage was made at this moment, and has moved the request that
its session saw. -/
def Stage.Taken (stage : Stage) (id : Nat) (moment : Moment) : Prop :=
  ∃ session env c, moment.2.1 = .call session env (.subscription c) ∧ stage.call id c ∧
    (∃ r, moment.1.subscriptions.get session id = some r ∧ r.state = stage.source) ∧
    ∃ r, moment.2.2.subscriptions.get session id = some r ∧ r.state = stage.target ∧
      stage.recorded r

/-- The stages were taken in their order. -/
def Passed (past : List Moment) (id : Nat) (stages : List Stage) : Prop :=
  ∃ moments, moments.Sublist past ∧ List.Forall₂ (fun stage moment => stage.Taken id moment) stages moments

section Passed

variable {past : List Moment} {id : Nat} {stages : List Stage} {stage : Stage} {moment : Moment}

theorem passed_nil : Passed past id [] := ⟨[], List.nil_sublist past, .nil⟩

theorem Passed.later (passed : Passed past id stages) (moment : Moment) :
    Passed (past ++ [moment]) id stages := by
  obtain ⟨moments, inside, each⟩ := passed
  exact ⟨moments, inside.trans (List.sublist_append_left past _), each⟩

theorem Passed.next (passed : Passed past id stages) (taken : stage.Taken id moment) :
    Passed (past ++ [moment]) id (stages ++ [stage]) := by
  obtain ⟨moments, inside, each⟩ := passed
  exact ⟨moments ++ [moment], inside.append (.refl _), List.rel_append each (.cons taken .nil)⟩

end Passed

/-- The stages that lead to a state, if requests are left in it. -/
def SubscriptionState.stages (reference : String) : SubscriptionState → Option (List Stage)
  | .pendingKyc | .kycRejected | .rejected | .cancelled => some []
  | .kycApproved => some [kycApproval]
  | .pendingGpApproval => some [kycApproval, opsApproval]
  | .approved => some [kycApproval, opsApproval, gpApproval]
  | .queuedForNav | .executed => some (approvals reference)
  | .draft | .pendingOpsReview | .pendingWire | .wireConfirmed => none

/-- The request has passed the stages that lead to its state. -/
structure Sound (past : List Moment) (id : Nat) (r : SubscriptionRequestRecord) : Prop where
  passed : ∃ stages, r.state.stages (r.wireReference.getD "") = some stages ∧ Passed past id stages
  wired : r.state = .queuedForNav ∨ r.state = .executed → r.wireReference.isSome

section Sound

variable {past : List Moment} {id : Nat} {r old : SubscriptionRequestRecord} {moment : Moment}

theorem Sound.later (sound : Sound past id r) (moment : Moment) :
    Sound (past ++ [moment]) id r := by
  obtain ⟨stages, known, passed⟩ := sound.passed
  exact ⟨⟨stages, known, passed.later moment⟩, sound.wired⟩

theorem sound_started (ended : r.state.stages (r.wireReference.getD "") = some [])
    (unqueued : r.state ≠ .queuedForNav ∧ r.state ≠ .executed) : Sound past id r :=
  ⟨⟨[], ended, passed_nil⟩, fun queued => (queued.elim unqueued.1 unqueued.2).elim⟩

theorem Sound.stages_eq (sound : Sound past id old) (stages : List Stage)
    (known : old.state.stages (old.wireReference.getD "") = some stages) : Passed past id stages := by
  obtain ⟨stages', same, passed⟩ := sound.passed
  rw [known] at same
  cases same
  exact passed

/-- A move of a call takes the stage that is next, or needs none. -/
theorem Sound.moved {db next : Database} {session : Option Nat} {env : Env} {c : SubscriptionCall}
    (sound : Sound past id old) (step : c.Moved env id old r)
    (before : db.subscriptions.get session id = some old)
    (after : next.subscriptions.get session id = some r) :
    Sound (past ++ [(db, .call session env (.subscription c), next)]) id r := by
  cases step with
  | @decidedKyc _ approved _ _ _ pending =>
    cases approved with
    | false => exact sound_started rfl ⟨nofun, nofun⟩
    | true =>
      exact ⟨⟨_, rfl, passed_nil.next ⟨session, env, _, rfl, ⟨_, _, rfl⟩, ⟨old, before, pending⟩,
        _, after, rfl, trivial⟩⟩, nofun⟩
  | reviewedOps pending =>
    rcases pending with state | state
    · have passed := sound.stages_eq [kycApproval] (by rw [state]; rfl)
      exact ⟨⟨_, rfl, passed.next ⟨session, env, _, rfl, ⟨_, _, rfl⟩, ⟨old, before, state⟩,
        _, after, rfl, trivial⟩⟩, nofun⟩
    · obtain ⟨stages, known, -⟩ := sound.passed
      rw [state] at known
      cases known
  | refusedOps => exact sound_started rfl ⟨nofun, nofun⟩
  | @decidedGp _ approved _ _ _ pending =>
    cases approved with
    | false => exact sound_started rfl ⟨nofun, nofun⟩
    | true =>
      have passed := sound.stages_eq [kycApproval, opsApproval] (by rw [pending]; rfl)
      exact ⟨⟨_, rfl, passed.next ⟨session, env, _, rfl, ⟨_, rfl⟩, ⟨old, before, pending⟩,
        _, after, rfl, trivial⟩⟩, nofun⟩
  | receivedWire approved =>
    have passed := sound.stages_eq [kycApproval, opsApproval, gpApproval]
      (by rw [approved]; rfl)
    exact ⟨⟨_, rfl, passed.next ⟨session, env, _, rfl, rfl, ⟨old, before, approved⟩,
      _, after, rfl, rfl⟩⟩, fun _ => rfl⟩
  | executed queued =>
    have passed := sound.stages_eq (approvals (old.wireReference.getD ""))
      (by rw [queued]; rfl)
    exact ⟨⟨_, rfl, passed.later _⟩, fun _ => sound.wired (.inl queued)⟩
  | cancelled => exact sound_started rfl ⟨nofun, nofun⟩

end Sound

/-! ## Runs -/

/-- What holds of the requests after a history of calls. -/
structure Approved (past : List Moment) (db : Database) : Prop where
  settled : db.subscriptions.Settled SubscriptionRequestRecord.Finished
  sound : ∀ observer id r, db.subscriptions.get observer id = some r → Sound past id r

section Runs

variable {db next final : Database} {event : DeskEvent} {env : Env} {session : Option Nat}

/-- The calls about anything else only commit. -/
theorem turned_calm {t : Versioned SubscriptionRequestRecord} :
    Undisturbed session fun s => Turned (fun _ _ _ => False) session t s.subscriptions where
  commit _ turned := turned.commit
  accounts _ _ turned := turned
  transactions _ _ turned := turned
  cash _ _ turned := turned

/-- What a call has made of the requests. -/
theorem DeskCall.turned (env : Env) (session : Option Nat)
    (settled : db.subscriptions.Settled SubscriptionRequestRecord.Finished) (c : DeskCall) :
    Turned (fun id old r => ∃ own, c = .subscription own ∧ own.Moved env id old r) session
      db.subscriptions (ended (c.run env session) db).subscriptions := by
  have others : ∀ {x : Run Unit}, Keeps (fun s : Database =>
      Turned (fun _ _ _ => False) session db.subscriptions s.subscriptions) x →
      Turned (fun id old r => ∃ own, c = .subscription own ∧ own.Moved env id old r) session
        db.subscriptions (ended x db).subscriptions := fun keeps =>
    have turned := Triple.ended keeps (.refl settled)
    ⟨turned.settled, turned.lasts, fun observer id r visible =>
      (turned.versions observer id r visible).imp_right fun new =>
        new.imp_right fun ⟨_, _, impossible, _⟩ => impossible.elim⟩
  cases c with
  | subscription own =>
    have turned := own.turned env session settled
    exact ⟨turned.settled, turned.lasts, fun observer id r visible =>
      (turned.versions observer id r visible).imp_right fun new =>
        new.imp_right fun ⟨old, before, step, after⟩ => ⟨old, before, ⟨own, rfl, step⟩, after⟩⟩
  | redemption own => exact others (own.keeps turned_calm fun _ _ turned => turned)
  | processSubscription p => exact others (CapitalAccounts.keeps_processSubscription turned_calm p)
  | processRedemption p => exact others (CapitalAccounts.keeps_processRedemption turned_calm p)
  | allocateDaily d =>
    exact others ((CapitalAccounts.keeps_allocateDaily turned_calm d).bind fun _ => .pure _)

theorem Approved.step {past : List Moment} (approved : Approved past db)
    (stepped : desk.step db event = some next) : Approved (past ++ [(db, event, next)]) next := by
  rw [desk_step stepped]
  cases event with
  | call session env c =>
    have turned := c.turned env session approved.settled
    refine ⟨turned.settled, fun observer id r visible => ?_⟩
    rcases turned.versions observer id r visible with ⟨before, seen⟩ | started |
      ⟨old, seen, ⟨own, rfl, step⟩, after⟩
    · exact (approved.sound before id r seen).later _
    · exact sound_started (by rw [started]; rfl) ⟨by rw [started]; decide, by rw [started]; decide⟩
    · exact (approved.sound session id old seen).moved step seen after
  | commit owner =>
    have settled : (db.subscriptions.commit (some owner)).Settled _ := approved.settled.commit
    refine ⟨settled, fun observer id r visible => ?_⟩
    have held : (db.subscriptions.commit (some owner)).get observer id = some r := visible
    obtain ⟨before, seen⟩ := Versioned.get_commit held
    exact (approved.sound before id r seen).later _
  | close owner =>
    refine ⟨approved.settled.close, fun observer id r visible => ?_⟩
    obtain ⟨before, seen⟩ := Versioned.get_close visible
    exact (approved.sound before id r seen).later _

theorem approved_run {events : List DeskEvent} (empty : db.subscriptions = [])
    (ran : desk.run db events = some final) : Approved (desk.moments db events) final := by
  have initial : Approved [] db := by
    constructor
    · rw [empty]
      intro v member
      cases member
    · rw [empty]
      intro observer id r visible
      cases visible
  have kept : ∀ past s event next, Approved past s → desk.step s event = some next →
      Approved (past ++ [(s, event, next)]) next := fun _ _ _ _ approved stepped =>
    approved.step stepped
  simpa using System.invariant_history kept ran initial

/-- A finished request stays as it is for whoever has seen it. -/
theorem finished_kept {observer : Option Nat} {id : Nat} {r : SubscriptionRequestRecord}
    (settled : db.subscriptions.Settled SubscriptionRequestRecord.Finished)
    (visible : db.subscriptions.get observer id = some r) (finished : r.Finished)
    (unclosed : ∀ owner, observer = some owner → event ≠ .close owner) :
    (event.result db).subscriptions.Settled SubscriptionRequestRecord.Finished ∧
      (event.result db).subscriptions.get observer id = some r := by
  cases event with
  | call session env c =>
    have turned := c.turned env session settled
    exact ⟨turned.settled, turned.lasts observer id r visible finished⟩
  | commit owner =>
    have committed : (db.subscriptions.commit (some owner)).Settled _ := settled.commit
    have lasting : db.subscriptions.Lasts SubscriptionRequestRecord.Finished
        (db.subscriptions.commit (some owner)) := settled.lasts_commit
    exact ⟨committed, lasting observer id r visible finished⟩
  | close owner =>
    refine ⟨settled.close, (Versioned.get_close_other ?_).trans visible⟩
    exact fun own => unclosed owner own rfl

/-- A subscription that is executed has passed its approvals in the order of the
table, and whoever sees a request that is finished sees it so for good. -/
theorem executed_after_approvals {events : List DeskEvent} (empty : db.subscriptions = [])
    (ran : desk.run db events = some final) :
    (∀ observer id r, final.subscriptions.get observer id = some r → r.state = .executed →
      ∃ reference, r.wireReference = some reference ∧
        Passed (desk.moments db events) id (approvals reference) ∧
        Walk SubscriptionState.transitions .draft
          ([.pendingKyc] ++ (approvals reference).flatMap (·.path) ++ [.executed])) ∧
      ∀ observer id r more later, final.subscriptions.get observer id = some r →
        r.state ∈ [.executed, .rejected, .kycRejected, .cancelled] →
        desk.run final more = some later →
        (∀ owner, observer = some owner → ∀ event ∈ more, event ≠ .close owner) →
          later.subscriptions.get observer id = some r := by
  have approved := approved_run empty ran
  constructor
  · intro observer id r visible executed
    have sound := approved.sound observer id r visible
    obtain ⟨reference, recorded⟩ := Option.isSome_iff_exists.mp (sound.wired (.inr executed))
    refine ⟨reference, recorded, sound.stages_eq _ ?_, walk_approvals reference⟩
    rw [executed, recorded]
    rfl
  · intro observer id r more later visible terminal reran unclosed
    have finished : r.Finished := by
      unfold SubscriptionRequestRecord.Finished
      revert terminal
      cases r.state <;> decide
    have kept : ∀ (s : Database) event next,
        s.subscriptions.Settled SubscriptionRequestRecord.Finished ∧
          s.subscriptions.get observer id = some r →
        (∀ owner, observer = some owner → event ≠ .close owner) → desk.step s event = some next →
        next.subscriptions.Settled SubscriptionRequestRecord.Finished ∧
          next.subscriptions.get observer id = some r := by
      intro s event next held untouched stepped
      rw [desk_step stepped]
      exact finished_kept held.1 held.2 finished untouched
    have along : desk.Along (fun _ event => ∀ owner, observer = some owner → event ≠ .close owner)
        final more :=
      System.along_of_forall (fun event member owner own => unclosed owner own event member) final
    exact (System.invariant_along kept along reran ⟨approved.settled, visible⟩).2

end Runs

/-! ## A subscription of a new fund -/

def firstInvestor : UUID := .ofNat 1

/-- The terms of the default class: dealing is on the last business day of a quarter. -/
def newFund : Database := { terms := [{ shareClass := "default" }] }

def subscribed : List DeskEvent :=
  [.call (some 0) {} (.subscription (.submit firstInvestor 1000000 "default")),
    .call (some 0) {} (.subscription (.decideKyc 0 true "compliance" "")),
    .call (some 0) {} (.subscription (.reviewOps 0 true "operations" "")),
    .call (some 0) {} (.subscription (.decideGp 0 true "gp")),
    .call (some 0) {} (.subscription (.receiveWire 0 "WIRE-1")),
    .call (some 0) {} (.subscription (.execute 89 100 firstInvestor)),
    .commit 0, .close 0]

theorem subscribed_after_approvals : ∃ r : SubscriptionRequestRecord, r.state = .executed ∧
    ∃ reference, r.wireReference = some reference ∧
      Passed (desk.moments newFund subscribed) 0 (approvals reference) := by
  have stored : (desk.run newFund subscribed).map (fun s =>
      (s.subscriptions.get none 0).map (·.state)) = some (some .executed) := by decide +kernel
  obtain ⟨final, ran, executed⟩ := Option.map_eq_some_iff.mp stored
  obtain ⟨r, visible, state⟩ := Option.map_eq_some_iff.mp executed
  obtain ⟨reference, recorded, passed, -⟩ :=
    (executed_after_approvals rfl ran).1 none 0 r visible state
  exact ⟨r, state, reference, recorded, passed⟩

end MiniHedge.InvestorOperations
